import ForMqttClient.TaskRuns

/-!
# Received publishes

A publish that the hub accepts is kept in `rx_publish` until the task that was
started for it dispatches `AffirmRxPublish`, and its id in `rx_publish_id`
until the task dispatches `AffirmRxId`. What a receive task has still to say
to the hub, in flight or not yet dispatched, ties the two maps to the tasks.
-/

namespace Receiving

open MqttData TaskHub HubSteps Tasks System SystemSteps TaskRuns GuardedRuns

/-- The packet id that a receive task serves. -/
def rxId : TaskSpec → Option PacketId
  | .PublishRxQos1 packetId _ => some packetId
  | .PublishRxQos2 packetId _ => some packetId
  | _ => none

def affirmed : HubMsg → Option PacketId
  | .AffirmRxId packetId => some packetId
  | .AffirmRxPublish packetId => some packetId
  | _ => none

theorem rxId_of_dispatch {spec : TaskSpec} {msg : HubMsg} {id : PacketId}
    (h : .dispatch msg ∈ spec.run) (hmsg : affirmed msg = some id) : rxId spec = some id := by
  cases spec <;> simp [TaskSpec.run, transmitPublish] at h <;>
    (try rcases h with rfl | rfl) <;> exact hmsg

theorem rxId_toAcknowledge (entry : UnacknowledgedClientData) :
    rxId entry.toAcknowledge = none := by
  cases entry <;> rfl

def serves (w : World) (i : Nat) : Option PacketId :=
  w.tasks[i]?.bind (fun task => rxId task.spec)

/-- What task `i` has still to say to the hub about packet id `id`. -/
def affirms (w : World) (id : PacketId) (i : Nat) : List HubMsg :=
  if serves w i = some id then pending w i else []

/-- What is left of the two messages of a receive task. -/
inductive Shape (id : PacketId) : List HubMsg → Prop where
  | both : Shape id [.AffirmRxPublish id, .AffirmRxId id]
  | last : Shape id [.AffirmRxId id]
  | first : Shape id [.AffirmRxPublish id]
  | none : Shape id []

theorem Shape.of_part {id : PacketId} {msgs before : List HubMsg} (h : Shape id before)
    (hpart : msgs <+: before) : Shape id msgs := by
  cases h with
  | both =>
    simp only [List.prefix_cons_iff, List.prefix_nil] at hpart
    rcases hpart with rfl | ⟨_, rfl, rfl | ⟨_, rfl, rfl⟩⟩
    · exact .none
    · exact .first
    · exact .both
  | last =>
    simp only [List.prefix_cons_iff, List.prefix_nil] at hpart
    rcases hpart with rfl | ⟨_, rfl, rfl⟩
    · exact .none
    · exact .last
  | first =>
    simp only [List.prefix_cons_iff, List.prefix_nil] at hpart
    rcases hpart with rfl | ⟨_, rfl, rfl⟩
    · exact .none
    · exact .first
  | none =>
    rw [List.prefix_nil.mp hpart]
    exact .none

theorem Shape.tail {id : PacketId} {msg : HubMsg} {rest : List HubMsg} (h : Shape id (msg :: rest)) :
    Shape id rest ∧ affirmed msg = some id := by
  cases h with
  | both => exact ⟨.last, rfl⟩
  | last => exact ⟨.none, rfl⟩
  | first => exact ⟨.none, rfl⟩

section Tasks

variable {w w' : World} {action : Action} {id : PacketId} {i : Nat}

theorem lt_of_serves (h : serves w i = some id) : i < w.tasks.length := by
  obtain ⟨task, hget, _⟩ := Option.bind_eq_some_iff.mp h
  exact (List.getElem?_eq_some_iff.mp hget).1

theorem affirms_of_serves (h : serves w i = some id) : affirms w id i = pending w i := if_pos h

theorem affirms_of_not (h : serves w i ≠ some id) : affirms w id i = [] := if_neg h

theorem serves_of_affirms (h : affirms w id i ≠ []) : serves w i = some id := by
  by_cases hserves : serves w i = some id
  · exact hserves
  · exact absurd (affirms_of_not hserves) h

theorem serves_of_moved (h : Moved w action w') (hi : i < w.tasks.length) :
    serves w' i = serves w i := by
  have hget : w.tasks[i]? = some w.tasks[i] := List.getElem?_eq_getElem hi
  obtain ⟨task', hget', hspec⟩ := spec_of_moved h hget
  rw [serves, serves, hget, hget', Option.bind_some, Option.bind_some, hspec]

/-- Outside the hub only the error exit of a receive task loses a message. -/
theorem affirms_of_outside (h : Moved w action w') (hhub : ∀ a, action ≠ .hub a) :
    affirms w' id i = affirms w id i ∨
      action = .task i .receiptErr ∧ serves w i = some id ∧
        affirms w' id i = queuedFrom w.bus i := by
  by_cases hi : i < w.tasks.length
  · have same := serves_of_moved h hi
    by_cases hserves : serves w i = some id
    · rw [affirms_of_serves hserves, affirms_of_serves (same.trans hserves)]
      rcases task_or_not h with ⟨k, task, a, rfl, hget, hmoved⟩ | notTask
      · by_cases hki : k = i
        · subst hki
          rcases pending_of_taskMoved hget hmoved with hpending | ⟨_, rfl, _, hpending⟩
          · exact .inl hpending
          · exact .inr ⟨rfl, hserves, hpending⟩
        · exact .inl (pending_of_other h hhub (by rintro a ⟨⟩; exact hki rfl))
      · exact .inl (pending_of_other h hhub (notTask i))
    · rw [affirms_of_not hserves, affirms_of_not (same ▸ hserves)]
      exact .inl rfl
  · have hlength := tasks_length_of_outside h hhub
    left
    rw [affirms_of_not (fun hs => hi (lt_of_serves hs)),
      affirms_of_not (fun hs => hi (hlength ▸ lt_of_serves hs))]

theorem affirms_prefix_of_outside (h : Moved w action w') (hhub : ∀ a, action ≠ .hub a) :
    affirms w' id i <+: affirms w id i := by
  rcases @affirms_of_outside w w' action id i h hhub with hsame | ⟨_, hserves, hqueued⟩
  · exact hsame ▸ List.prefix_rfl
  · rw [hqueued, affirms_of_serves hserves]
    exact List.prefix_append _ _

theorem affirms_of_hub {a : HubAction} (h : HubMoved w a w') (hi : i < w.tasks.length) :
    affirms w id i =
      (if serves w i = some id then takenFrom w i a else []) ++ affirms w' id i := by
  have same : serves w' i = serves w i := serves_of_moved (.hub h) hi
  by_cases hserves : serves w i = some id
  · rw [if_pos hserves, affirms_of_serves hserves, affirms_of_serves (same.trans hserves)]
    exact pending_of_hub h hi
  · rw [if_neg hserves, affirms_of_not hserves, affirms_of_not (same ▸ hserves)]
    rfl

/-- A task that the hub has just started. -/
theorem serves_of_started {specs : List TaskSpec}
    (htasks : w'.tasks = w.tasks ++ specs.map Task.init) (hi : w.tasks.length ≤ i) :
    serves w' i = specs[i - w.tasks.length]?.bind rxId := by
  rw [serves, htasks, List.getElem?_append_right hi, List.getElem?_map]
  cases specs[i - w.tasks.length]? <;> rfl

end Tasks

/-! ## History -/

/-- The event accepts a publish with packet id `id`, or hands one to the user. -/
def about (id : PacketId) : Event → Bool
  | .rxAccepted _ publish _ => publish.qos.packetId == some id
  | .user (.Publish publish) => publish.qos.packetId == some id
  | _ => false

/-- The task that the hub starts for a publish. -/
inductive StartedFor (publish : Publish) (id : PacketId) : TaskSpec → Prop where
  | qos1 {protocol : Protocol} (hqos : publish.qos = .AtLeastOnce id) :
      StartedFor publish id (.PublishRxQos1 id protocol)
  | qos2 {protocol : Protocol} (hqos : publish.qos = .ExactlyOnce id) :
      StartedFor publish id (.PublishRxQos2 id protocol)

theorem packetId_of_startedFor {publish : Publish} {id : PacketId} {spec : TaskSpec}
    (h : StartedFor publish id spec) : publish.qos.packetId = some id := by
  cases h with
  | qos1 hqos => rw [hqos]; rfl
  | qos2 hqos => rw [hqos]; rfl

theorem rxId_of_startedFor {publish : Publish} {id : PacketId} {spec : TaskSpec}
    (h : StartedFor publish id spec) : rxId spec = some id := by
  cases h <;> rfl

theorem toDispatch_of_startedFor {publish : Publish} {id : PacketId} {spec : TaskSpec}
    (h : StartedFor publish id spec) :
    toDispatch spec.run = [.AffirmRxPublish id, .AffirmRxId id] := by
  cases h <;> rfl

/-- The newest event about `id` in the history is that the hub accepted
`publish`, for which it started task `i`; `since` is what came after. -/
structure Accepted (id : PacketId) (publish : Publish) (i : Nat) (since log : List Event) :
    Prop where
  split : ∃ spec message before, StartedFor publish id spec ∧
    log = since ++ .started i spec :: .rxAccepted i publish message :: before
  quiet : ∀ event ∈ since, about id event = false

/-- What must stand in the history when `publish` is handed to the user. -/
def Due (id : PacketId) (publish : Publish) (log : List Event) : Prop :=
  ∃ i since, Accepted id publish i since log ∧
    (publish.qos = .ExactlyOnce id → .acked i (.PubRel id) ∈ since)

/-- Every publish with a packet id was due when it was handed to the user. -/
def Faithful (log : List Event) : Prop :=
  Throughout (fun event older => ∀ publish id, event = .user (.Publish publish) →
    publish.qos.packetId = some id → Due id publish older) log

theorem Faithful.append {events log : List Event} (h : Faithful log)
    (hnone : ∀ event ∈ events, ∀ publish id, event = .user (.Publish publish) →
      publish.qos.packetId ≠ some id) : Faithful (events ++ log) := by
  apply Throughout.append h
  intro event hevent older publish id heq hid
  exact absurd hid (hnone event hevent publish id heq)

theorem Faithful.append_quiet {events log : List Event} (h : Faithful log)
    (hquiet : ∀ event ∈ events, ∀ id, about id event = false) : Faithful (events ++ log) := by
  apply h.append
  rintro event hevent publish id rfl hid
  have := hquiet _ hevent id
  simp [about, hid] at this

theorem Accepted.append {id : PacketId} {publish : Publish} {i : Nat}
    {since log events : List Event} (h : Accepted id publish i since log)
    (hquiet : ∀ event ∈ events, about id event = false) :
    Accepted id publish i (events ++ since) (events ++ log) := by
  obtain ⟨spec, message, before, hspec, rfl⟩ := h.split
  refine ⟨⟨spec, message, before, hspec, (List.append_assoc ..).symm⟩, ?_⟩
  intro event hevent
  rcases List.mem_append.mp hevent with hnew | hold
  · exact hquiet event hnew
  · exact h.quiet event hold

theorem about_of_outside {event : Event} (h : Outside event) (id : PacketId) :
    about id event = false := by
  cases h with
  | @user msg => cases msg <;> rfl
  | _ => rfl

/-! ## The invariant -/

/-- Task `i` is a QoS2 receive task that has seen no PUBREL. -/
def Unreleased (w : World) (id : PacketId) (i : Nat) : Prop :=
  ∃ protocol, Unacked w i (.PublishRxQos2 id protocol)

/-- Every message about a received id in flight is from a task for this id. -/
def Sourced (w : World) : Prop :=
  ∀ e ∈ w.bus, ∀ msg id, e.event = .hubMsg msg → affirmed msg = some id →
    ∃ i, e.sender = .task i ∧ serves w i = some id

/-- The entry of `rx_publish` is the publish accepted last under its id, and
no other task than the one started for it has something to say about the id. -/
def Entered (w : World) (id : PacketId) (publish : Publish) : Prop :=
  ∃ i since, Accepted id publish i since w.log ∧
    (publish.qos = .ExactlyOnce id → .acked i (.PubRel id) ∈ since ∨ Unreleased w id i) ∧
    ∀ k, affirms w id k ≠ [] → k = i

structure Received (w : World) : Prop where
  shape : ∀ id i, Shape id (affirms w id i)
  keys : ∀ id, (w.hub.rxPublish id).isSome = true → (w.hub.rxPublishId id).isSome = true
  held : ∀ id i, affirms w id i ≠ [] → (w.hub.rxPublishId id).isSome = true
  alone : ∀ id i k, affirms w id i ≠ [] → affirms w id k ≠ [] → i = k
  waiting : ∀ id i, affirms w id i = [.AffirmRxId id] → w.hub.rxPublish id = none
  entered : ∀ id publish, w.hub.rxPublish id = some publish → Entered w id publish
  faithful : Faithful w.log

section Steps

variable {w w' : World} {action : Action}

theorem sourced_of_moved (htrack : OnTrack w) (h : Moved w action w') (hI : Sourced w) :
    Sourced w' := by
  intro e he msg id hevent hmsg
  rcases mem_bus_of_moved h he with hmem | hnew
  · obtain ⟨i, hsender, hserves⟩ := hI e hmem msg id hevent hmsg
    exact ⟨i, hsender, (serves_of_moved h (lt_of_serves hserves)).trans hserves⟩
  · cases hnew with
    | @task i task _ rest hget hphase hprog =>
      cases hevent
      have hmem : .dispatch msg ∈ task.spec.run := by
        apply (htrack i task hget).subset
        rw [hprog]
        exact List.mem_cons_self
      have hserves : serves w i = some id := by
        rw [serves, hget, Option.bind_some]
        exact rxId_of_dispatch hmem hmsg
      exact ⟨i, rfl, (serves_of_moved h (lt_of_serves hserves)).trans hserves⟩
    | pingFail hget hping => cases hevent; cases hmsg
    | pingSuccess hget => cases hevent; cases hmsg
    | timer hget => cases hevent; cases hmsg
    | rxPublish hget hfrom => cases hevent; cases hmsg
    | _ => cases hevent

/-- A receive task that takes its PUBREL is told so in the history. -/
theorem unreleased_of_outside (hrouted : Routed w) (h : Moved w action w')
    (hhub : ∀ a, action ≠ .hub a) {events : List Event} (hlog : w'.log = events ++ w.log)
    {id : PacketId} {i : Nat} (hI : Unreleased w id i) :
    Unreleased w' id i ∨ .acked i (.PubRel id) ∈ events := by
  obtain ⟨protocol, hwaits⟩ := hI
  rcases unacked_of_outside hrouted h hhub hlog rfl rfl hwaits with
    hwaits' | ⟨ack, htype, hpacketId, hacked⟩
  · exact .inl ⟨protocol, hwaits'⟩
  · right
    cases ack with
    | PubRel ackId => exact hpacketId ▸ hacked
    | _ => cases htype

/-- An entry of `rx_publish` that the step leaves where it is. -/
theorem Entered.keep {id : PacketId} {publish : Publish} (h : Entered w id publish)
    {events : List Event} (hlog : w'.log = events ++ w.log)
    (hquiet : ∀ event ∈ events, about id event = false)
    (haffirms : ∀ k, affirms w' id k ≠ [] → affirms w id k ≠ [])
    (hreleased : ∀ i, Unreleased w id i → Unreleased w' id i ∨ .acked i (.PubRel id) ∈ events) :
    Entered w' id publish := by
  obtain ⟨i, since, haccepted, hrel, hothers⟩ := h
  refine ⟨i, events ++ since, hlog ▸ haccepted.append hquiet, ?_,
    fun k hk => hothers k (haffirms k hk)⟩
  intro hqos
  rcases hrel hqos with hacked | hwaits
  · exact .inl (List.mem_append_right _ hacked)
  · rcases hreleased i hwaits with hwaits' | hacked
    · exact .inr hwaits'
    · exact .inl (List.mem_append_left _ hacked)

/-- A step that neither accepts a publish nor hears of one. -/
theorem Received.plain (hI : Received w) (hpublish : w'.hub.rxPublish = w.hub.rxPublish)
    (hids : w'.hub.rxPublishId = w.hub.rxPublishId) {events : List Event}
    (hlog : w'.log = events ++ w.log)
    (hquiet : ∀ event ∈ events, ∀ id, about id event = false)
    (haffirms : ∀ id i, affirms w' id i <+: affirms w id i)
    (hreleased : ∀ id i, Unreleased w id i →
      Unreleased w' id i ∨ .acked i (.PubRel id) ∈ events) : Received w' := by
  have still : ∀ id i, affirms w' id i ≠ [] → affirms w id i ≠ [] := by
    intro id i hne hnil
    have := haffirms id i
    rw [hnil, List.prefix_nil] at this
    exact hne this
  constructor
  · intro id i
    exact (hI.shape id i).of_part (haffirms id i)
  · rw [hpublish, hids]
    exact hI.keys
  · intro id i hne
    rw [hids]
    exact hI.held id i (still id i hne)
  · intro id i k hi hk
    exact hI.alone id i k (still id i hi) (still id k hk)
  · intro id i hlast
    rw [hpublish]
    have hpart := haffirms id i
    rw [hlast] at hpart
    apply hI.waiting id i
    have hshape := hI.shape id i
    cases hcase : affirms w id i with
    | nil => rw [hcase] at hpart; simp at hpart
    | cons msg rest =>
      rw [hcase] at hpart hshape
      cases hshape with
      | last => rfl
      | both => simp [List.cons_prefix_cons] at hpart
      | first => simp at hpart
  · intro id publish hentry
    rw [hpublish] at hentry
    exact (hI.entered id publish hentry).keep hlog (fun e he => hquiet e he id) (still id)
      (hreleased id)
  · rw [hlog]
    exact hI.faithful.append_quiet hquiet

theorem received_of_outside (hrouted : Routed w) (h : Moved w action w')
    (hhub : ∀ a, action ≠ .hub a) (hI : Received w) : Received w' := by
  obtain ⟨events, hlog, houtside⟩ := log_outside h hhub
  have hsame := (hub_of_moved h hhub).1
  refine hI.plain (by rw [hsame]) (by rw [hsame]) hlog
    (fun event hevent => about_of_outside (houtside event hevent))
    (fun id i => affirms_prefix_of_outside h hhub) ?_
  intro id i hwaits
  exact unreleased_of_outside hrouted h hhub hlog hwaits

/-- The hub takes one message of task `k` about `packetId`; nothing else about
a received id is said or unsaid. -/
structure Heard (w w' : World) (packetId : PacketId) (k : Nat) (msg : HubMsg) : Prop where
  queued : queuedFrom w.bus k ≠ []
  head : affirms w packetId k = msg :: affirms w' packetId k
  same : ∀ id i, ¬(id = packetId ∧ i = k) → affirms w' id i = affirms w id i

section Hear

variable {packetId : PacketId} {k : Nat} {msg : HubMsg}

theorem Heard.still (h : Heard w w' packetId k msg) (id : PacketId) (i : Nat)
    (hne : affirms w' id i ≠ []) : affirms w id i ≠ [] := by
  by_cases hik : id = packetId ∧ i = k
  · obtain ⟨rfl, rfl⟩ := hik
    rw [h.head]
    exact List.cons_ne_nil _ _
  · rwa [h.same id i hik] at hne

theorem Heard.shape (h : Heard w w' packetId k msg) (hI : Received w) (id : PacketId) (i : Nat) :
    Shape id (affirms w' id i) := by
  by_cases hik : id = packetId ∧ i = k
  · obtain ⟨rfl, rfl⟩ := hik
    have := hI.shape id i
    rw [h.head] at this
    exact this.tail.1
  · rw [h.same id i hik]
    exact hI.shape id i

/-- No other task says anything about the id. -/
theorem Heard.only (h : Heard w w' packetId k msg) (hI : Received w) {i : Nat}
    (hne : affirms w' packetId i ≠ []) : i = k :=
  hI.alone packetId i k (h.still packetId i hne) (by rw [h.head]; exact List.cons_ne_nil _ _)

theorem Received.affirmId (hI : Received w)
    (hheard : Heard w w' packetId k (.AffirmRxId packetId))
    (hpublish : w'.hub.rxPublish = w.hub.rxPublish)
    (hids : w'.hub.rxPublishId = Function.update w.hub.rxPublishId packetId none)
    (events : List Event) (hlog : w'.log = events ++ w.log)
    (hquiet : ∀ event ∈ events, ∀ id, about id event = false)
    (hreleased : ∀ id i, Unreleased w id i → Unreleased w' id i) : Received w' := by
  have hlast : affirms w packetId k = [.AffirmRxId packetId] := by
    have hshape := hI.shape packetId k
    rw [hheard.head] at hshape ⊢
    generalize affirms w' packetId k = rest at hshape
    cases hshape
    rfl
  have hnil : affirms w' packetId k = [] := by
    rw [hheard.head] at hlast
    exact (List.cons.inj hlast).2
  have hgone : w.hub.rxPublish packetId = none := hI.waiting packetId k hlast
  have hdone : ∀ i, affirms w' packetId i = [] := by
    intro i
    by_cases hne : affirms w' packetId i = []
    · exact hne
    · rw [hheard.only hI hne]
      exact hnil
  constructor
  · exact hheard.shape hI
  · intro id hid
    rw [hpublish] at hid
    by_cases heq : id = packetId
    · rw [heq, hgone] at hid
      cases hid
    · rw [hids, Function.update_of_ne heq]
      exact hI.keys id hid
  · intro id i hne
    by_cases heq : id = packetId
    · rw [heq] at hne
      exact absurd (hdone i) hne
    · rw [hids, Function.update_of_ne heq]
      exact hI.held id i (hheard.still id i hne)
  · intro id i j hi hj
    exact hI.alone id i j (hheard.still id i hi) (hheard.still id j hj)
  · intro id i hleft
    rw [hpublish]
    by_cases heq : id = packetId
    · rw [heq]
      exact hgone
    · rw [hheard.same id i (fun h => heq h.1)] at hleft
      exact hI.waiting id i hleft
  · intro id publish hentry
    rw [hpublish] at hentry
    exact (hI.entered id publish hentry).keep hlog (fun e he => hquiet e he id)
      (hheard.still id) (fun i h => .inl (hreleased id i h))
  · rw [hlog]
    exact hI.faithful.append_quiet hquiet

theorem Received.affirmPublish (hI : Received w)
    (hheard : Heard w w' packetId k (.AffirmRxPublish packetId))
    (hpublish : w'.hub.rxPublish = Function.update w.hub.rxPublish packetId none)
    (hids : w'.hub.rxPublishId = w.hub.rxPublishId)
    (events : List Event) (hlog : w'.log = events ++ w.log)
    (hquiet : ∀ event ∈ events, ∀ id, id ≠ packetId → about id event = false)
    (hfaithful : Faithful w'.log)
    (hreleased : ∀ id i, Unreleased w id i → Unreleased w' id i) : Received w' := by
  constructor
  · exact hheard.shape hI
  · intro id hid
    rw [hids]
    by_cases heq : id = packetId
    · rw [hpublish, heq, Function.update_self] at hid
      cases hid
    · rw [hpublish, Function.update_of_ne heq] at hid
      exact hI.keys id hid
  · intro id i hne
    rw [hids]
    exact hI.held id i (hheard.still id i hne)
  · intro id i j hi hj
    exact hI.alone id i j (hheard.still id i hi) (hheard.still id j hj)
  · intro id i hleft
    rw [hpublish]
    by_cases heq : id = packetId
    · rw [heq, Function.update_self]
    · rw [Function.update_of_ne heq]
      rw [hheard.same id i (fun h => heq h.1)] at hleft
      exact hI.waiting id i hleft
  · intro id publish hentry
    by_cases heq : id = packetId
    · rw [hpublish, heq, Function.update_self] at hentry
      cases hentry
    · rw [hpublish, Function.update_of_ne heq] at hentry
      exact (hI.entered id publish hentry).keep hlog (fun e he => hquiet e he id heq)
        (hheard.still id) (fun i h => .inl (hreleased id i h))
  · exact hfaithful

end Hear

/-- The hub accepts a publish and starts a task for it, the only one that has something
to say about its id. -/
structure Accepting (w w' : World) (packetId : PacketId) (publish : Publish) (spec : TaskSpec)
    (message : Nat) (events : List Event) : Prop where
  free : w.hub.rxPublishId packetId = none
  started : StartedFor publish packetId spec
  entry : w'.hub.rxPublish = Function.update w.hub.rxPublish packetId (some publish)
  ids : w'.hub.rxPublishId = Function.update w.hub.rxPublishId packetId (some packetId)
  log : w'.log = .started w.tasks.length spec ::
    .rxAccepted w.tasks.length publish message :: (events ++ w.log)
  quiet : ∀ event ∈ events, ∀ id, about id event = false
  same : ∀ id i, i ≠ w.tasks.length ∨ id ≠ packetId → affirms w' id i = affirms w id i
  new : affirms w' packetId w.tasks.length = [.AffirmRxPublish packetId, .AffirmRxId packetId]
  waits : publish.qos = .ExactlyOnce packetId → Unreleased w' packetId w.tasks.length
  released : ∀ id i, Unreleased w id i → Unreleased w' id i

section Accept

variable {packetId id : PacketId} {publish : Publish} {spec : TaskSpec} {message : Nat}
variable {events : List Event}

theorem Accepting.same_id (h : Accepting w w' packetId publish spec message events)
    (hne : id ≠ packetId) (i : Nat) : affirms w' id i = affirms w id i := h.same id i (.inr hne)

/-- No older task has anything to say about the id. -/
theorem Accepting.only (h : Accepting w w' packetId publish spec message events)
    (hI : Received w) {i : Nat} (hne : affirms w' packetId i ≠ []) : i = w.tasks.length := by
  by_contra hother
  rw [h.same packetId i (.inl hother)] at hne
  have held := hI.held packetId i hne
  rw [h.free] at held
  cases held

theorem Accepting.appended (h : Accepting w w' packetId publish spec message events) :
    w'.log = ([.started w.tasks.length spec, .rxAccepted w.tasks.length publish message] ++
      events) ++ w.log := h.log

theorem Accepting.about_other (h : Accepting w w' packetId publish spec message events)
    (hne : id ≠ packetId) : ∀ event ∈ [Event.started w.tasks.length spec,
      .rxAccepted w.tasks.length publish message] ++ events, about id event = false := by
  intro event hevent
  rcases List.mem_append.mp hevent with hfirst | hrest
  · simp only [List.mem_cons, List.not_mem_nil, or_false] at hfirst
    rcases hfirst with rfl | rfl
    · rfl
    · simpa [about, packetId_of_startedFor h.started] using Ne.symm hne
  · exact h.quiet event hrest id

theorem Accepting.shape (h : Accepting w w' packetId publish spec message events)
    (hI : Received w) (i : Nat) : Shape id (affirms w' id i) := by
  by_cases heq : i = w.tasks.length ∧ id = packetId
  · obtain ⟨rfl, rfl⟩ := heq
    rw [h.new]
    exact .both
  · rw [h.same id i (by tauto)]
    exact hI.shape id i

/-- The id is taken, and an id that was taken stays so. -/
theorem Accepting.taken (h : Accepting w w' packetId publish spec message events)
    (hother : id ≠ packetId → (w.hub.rxPublishId id).isSome = true) :
    (w'.hub.rxPublishId id).isSome = true := by
  rw [h.ids]
  by_cases heq : id = packetId
  · rw [heq, Function.update_self]
    rfl
  · rw [Function.update_of_ne heq]
    exact hother heq

theorem Accepting.alone (h : Accepting w w' packetId publish spec message events)
    (hI : Received w) {i k : Nat} (hi : affirms w' id i ≠ []) (hk : affirms w' id k ≠ []) :
    i = k := by
  by_cases heq : id = packetId
  · subst heq
    rw [h.only hI hi, h.only hI hk]
  · rw [h.same_id heq] at hi hk
    exact hI.alone id i k hi hk

theorem Accepting.waiting (h : Accepting w w' packetId publish spec message events)
    (hI : Received w) {i : Nat} (hlast : affirms w' id i = [.AffirmRxId id]) :
    w'.hub.rxPublish id = none := by
  by_cases heq : id = packetId
  · subst heq
    obtain rfl := h.only hI (by rw [hlast]; exact List.cons_ne_nil _ _)
    rw [h.new] at hlast
    cases hlast
  · rw [h.entry, Function.update_of_ne heq]
    rw [h.same_id heq] at hlast
    exact hI.waiting id i hlast

theorem Accepting.entered (h : Accepting w w' packetId publish spec message events)
    (hI : Received w) {entry : Publish} (hentry : w'.hub.rxPublish id = some entry) :
    Entered w' id entry := by
  by_cases heq : id = packetId
  · subst heq
    rw [h.entry, Function.update_self] at hentry
    obtain rfl := Option.some.inj hentry
    refine ⟨w.tasks.length, [], ⟨⟨spec, message, events ++ w.log, h.started, h.log⟩, by simp⟩,
      fun hqos => .inr (h.waits hqos), fun k => h.only hI⟩
  · rw [h.entry, Function.update_of_ne heq] at hentry
    refine (hI.entered id entry hentry).keep h.appended (h.about_other heq) ?_
      (fun i hwaits => .inl (h.released id i hwaits))
    intro k hk
    rwa [h.same_id heq] at hk

theorem Accepting.faithful (h : Accepting w w' packetId publish spec message events)
    (hI : Received w) : Faithful w'.log := by
  rw [h.appended]
  apply hI.faithful.append
  rintro event hevent publish' id rfl hid'
  rcases List.mem_append.mp hevent with hfirst | hrest
  · simp at hfirst
  · have := h.quiet _ hrest id
    simp [about, hid'] at this

theorem Received.accept (hI : Received w)
    (h : Accepting w w' packetId publish spec message events) : Received w' where
  shape := fun _ i => h.shape hI i
  keys := by
    intro id hin
    refine h.taken fun hne => ?_
    rw [h.entry, Function.update_of_ne hne] at hin
    exact hI.keys id hin
  held := by
    intro id i hsays
    refine h.taken fun hne => ?_
    rw [h.same_id hne] at hsays
    exact hI.held id i hsays
  alone := fun _ _ _ hi hk => h.alone hI hi hk
  waiting := fun _ _ hlast => h.waiting hI hlast
  entered := fun _ _ hentry => h.entered hI hentry
  faithful := h.faithful hI

end Accept

/-! ## The hub -/

theorem unreleased_of_hub {a : HubAction} (h : HubMoved w a w') {id : PacketId} {i : Nat}
    (hI : Unreleased w id i) : Unreleased w' id i := by
  obtain ⟨protocol, hwaits⟩ := hI
  exact ⟨protocol, unacked_of_hub h hwaits⟩

/-- An input that is no affirmation takes nothing away. -/
theorem affirms_of_input (hI : Received w) {a : HubAction} {input : HubInput} {message : Nat}
    {taken : World} (htakes : Takes w a input message taken) (h : HubMoved w a w')
    (hother : ∀ msg, input = .hubMsg msg → affirmed msg = none) {id : PacketId} {i : Nat}
    (hi : i < w.tasks.length) : affirms w' id i = affirms w id i := by
  have hsplit : affirms w id i = _ := affirms_of_hub h hi
  have hnothing : (if serves w i = some id then takenFrom w i a else []) = [] := by
    split
    · next hserves =>
      rw [if_pos hserves] at hsplit
      cases htaken : takenFrom w i a with
      | nil => rfl
      | cons msg rest =>
        have hnone := hother msg (input_of_takenFrom htakes (htaken ▸ List.mem_cons_self))
        have hshape := hI.shape id i
        rw [hsplit, htaken] at hshape
        rw [hshape.tail.2] at hnone
        cases hnone
    · rfl
  rw [hnothing, List.nil_append] at hsplit
  exact hsplit.symm

/-- Tasks of the other kinds have nothing to say about received ids. -/
theorem affirms_of_started {specs : List TaskSpec}
    (htasks : w'.tasks = w.tasks ++ specs.map Task.init)
    (hspecs : ∀ spec ∈ specs, rxId spec = none) {id : PacketId} {i : Nat}
    (hi : w.tasks.length ≤ i) : affirms w' id i = [] := by
  apply affirms_of_not
  rw [serves_of_started htasks hi]
  cases hget : specs[i - w.tasks.length]? with
  | none => simp
  | some spec => simp [hspecs spec (List.mem_of_getElem? hget)]

theorem affirms_nil {id : PacketId} {i : Nat} (hi : w.tasks.length ≤ i) : affirms w id i = [] :=
  affirms_of_not (fun hs => absurd (lt_of_serves hs) (by omega))

theorem heard_of_take (hsourced : Sourced w) {j message : Nat} {sender : Worker}
    {msg : HubMsg} {packetId : PacketId} {rest : List Envelope} (h : HubMoved w (.recv j) w')
    (htake : PairFifo.take Envelope.channel w.bus j =
      some (⟨sender, .hub, .hubMsg msg, message⟩, rest))
    (hmsg : affirmed msg = some packetId) (htasks : w'.tasks = w.tasks) :
    ∃ k, Heard w w' packetId k msg := by
  obtain ⟨k, rfl, hserves⟩ := hsourced _ (PairFifo.mem_of_take htake) msg packetId rfl hmsg
  have htaken : takenFrom w k (.recv j) = [msg] := by rw [takenFrom_of_take htake, if_pos rfl]
  refine ⟨k, ?_, ?_, ?_⟩
  · rw [queuedFrom_of_hub h, htaken]
    exact List.cons_ne_nil _ _
  · rw [affirms_of_hub h (lt_of_serves hserves), if_pos hserves, htaken]
    rfl
  · intro id i hne
    by_cases hi : i < w.tasks.length
    · have hnothing : (if serves w i = some id then takenFrom w i (.recv j) else []) = [] := by
        split
        · next hserves' =>
          rw [takenFrom_of_take htake, if_neg]
          rintro ⟨⟩
          exact hne ⟨Option.some.inj (hserves'.symm.trans hserves), rfl⟩
        · rfl
      have hsplit : affirms w id i = _ := affirms_of_hub h hi
      rw [hsplit, hnothing, List.nil_append]
    · have hlength : w'.tasks.length = w.tasks.length := by rw [htasks]
      exact (affirms_nil (by omega)).trans (affirms_nil (by omega)).symm

/-- The task of an accepted publish is the only one that speaks for the id. -/
theorem received_of_rxAccept (hrouted : Routed w) (hI : Received w) {j message : Nat}
    {sender : Worker} {publish : Publish} {rest : List Envelope}
    (htake : PairFifo.take Envelope.channel w.bus j =
      some (⟨sender, .hub, .hubMsg (.RxPublish publish), message⟩, rest))
    (h : HubMoved w (.recv j) w') {packetId : PacketId} {spec : TaskSpec}
    (hfree : w.hub.rxPublishId packetId = none) (hspec : StartedFor publish packetId spec)
    (htasks : w'.tasks = w.tasks ++ [spec].map Task.init)
    (hpublish : w'.hub.rxPublish = Function.update w.hub.rxPublish packetId (some publish))
    (hids : w'.hub.rxPublishId = Function.update w.hub.rxPublishId packetId (some packetId))
    (hlog : w'.log = .started w.tasks.length spec ::
      .rxAccepted w.tasks.length publish message ::
        ([.hubTook sender (.RxPublish publish)] ++ w.log)) : Received w' := by
  have hother : ∀ msg, HubInput.hubMsg (.RxPublish publish) = .hubMsg msg →
      affirmed msg = none := by rintro msg ⟨⟩; rfl
  have hid := rxId_of_startedFor hspec
  have hget : w'.tasks[w.tasks.length]? = some (.init spec) :=
    htasks ▸ List.getElem?_concat_length
  suffices accepting : Accepting w w' packetId publish spec message
      [.hubTook sender (.RxPublish publish)] from hI.accept accepting
  refine ⟨hfree, hspec, hpublish, hids, hlog, by simp [about], ?_, ?_, ?_,
    fun id i hwaits => unreleased_of_hub h hwaits⟩
  · intro id i hne
    by_cases hi : i < w.tasks.length
    · exact affirms_of_input hI (.hubMsg htake) h hother hi
    · refine Eq.trans (affirms_of_not ?_) (affirms_nil (by omega)).symm
      rw [serves_of_started htasks (by omega)]
      by_cases heq : i = w.tasks.length
      · have hidne : id ≠ packetId := hne.resolve_left (fun h => h heq)
        simpa [heq, hid] using Ne.symm hidne
      · have hpos : i - w.tasks.length ≠ 0 := by omega
        simp [hpos]
  · refine Eq.trans (affirms_of_serves ?_) (Eq.trans (pending_eq hget) ?_)
    · rw [serves_of_started htasks (Nat.le_refl _), Nat.sub_self]
      exact hid
    · rw [queuedFrom_of_started hrouted h (Nat.le_refl _)]
      exact toDispatch_of_startedFor hspec
  · intro hqos
    cases hspec with
    | qos1 hqos' => rw [hqos] at hqos'; cases hqos'
    | @qos2 protocol hqos' =>
      exact ⟨protocol, unacked_of_started hrouted h (Nat.le_refl _) hget⟩

/-- A publish goes to the user after its task has taken what it waits for. -/
theorem received_of_affirmRxPublish (hI : Received w) {packetId : PacketId} {publish : Publish}
    {k : Nat} {sender : Worker} {a : HubAction} (h : HubMoved w a w')
    (hheard : Heard w w' packetId k (.AffirmRxPublish packetId))
    (hheld : w.hub.rxPublish packetId = some publish)
    (hpublish : w'.hub.rxPublish = Function.update w.hub.rxPublish packetId none)
    (hids : w'.hub.rxPublishId = w.hub.rxPublishId)
    (hlog : w'.log = .user (.Publish publish) ::
      ([.hubTook sender (.AffirmRxPublish packetId)] ++ w.log)) : Received w' := by
  obtain ⟨i, since, haccepted, hrel, honly⟩ := hI.entered packetId publish hheld
  obtain rfl : k = i := honly k (by rw [hheard.head]; exact List.cons_ne_nil _ _)
  have hid : publish.qos.packetId = some packetId := by
    obtain ⟨_, _, _, hstarted, _⟩ := haccepted.split
    exact packetId_of_startedFor hstarted
  have hnow : Accepted packetId publish k
      ([.hubTook sender (.AffirmRxPublish packetId)] ++ since)
      ([.hubTook sender (.AffirmRxPublish packetId)] ++ w.log) :=
    haccepted.append (by simp [about])
  have hfaithful : Faithful ([.hubTook sender (.AffirmRxPublish packetId)] ++ w.log) :=
    hI.faithful.append_quiet (by simp [about])
  refine hI.affirmPublish hheard hpublish hids
    [.user (.Publish publish), .hubTook sender (.AffirmRxPublish packetId)] hlog ?_ ?_
    (fun id i hwaits => unreleased_of_hub h hwaits)
  · intro event hevent id hne
    simp only [List.mem_cons, List.not_mem_nil, or_false] at hevent
    rcases hevent with rfl | rfl
    · simpa [about, hid] using Ne.symm hne
    · rfl
  · rw [hlog]
    refine ⟨?_, hfaithful⟩
    rintro publish' id ⟨⟩ hid'
    obtain rfl : packetId = id := Option.some.inj (hid.symm.trans hid')
    refine ⟨k, _, hnow, ?_⟩
    intro hqos
    rcases hrel hqos with hacked | hwaits
    · exact List.mem_cons_of_mem _ hacked
    · obtain ⟨_, hnothing, _⟩ := hwaits
      exact absurd hnothing hheard.queued

theorem received_of_affirmRxPublishNone (hI : Received w) {k : Nat} {sender : Worker}
    {packetId : PacketId} (hheard : Heard w w' packetId k (.AffirmRxPublish packetId))
    (hpublish : w'.hub.rxPublish = Function.update w.hub.rxPublish packetId none)
    (hids : w'.hub.rxPublishId = w.hub.rxPublishId)
    (hlog : w'.log = [.hubTook sender (.AffirmRxPublish packetId)] ++ w.log)
    (hreleased : ∀ id i, Unreleased w id i → Unreleased w' id i) : Received w' := by
  have hfaithful : Faithful w'.log := by
    rw [hlog]
    exact hI.faithful.append_quiet (by simp [about])
  exact hI.affirmPublish hheard hpublish hids [.hubTook sender (.AffirmRxPublish packetId)] hlog
    (by simp [about]) hfaithful hreleased

/-- A step that takes no affirmation, accepts no publish and shows the user none of QoS 1
or 2. -/
theorem received_of_plain {a : HubAction} {input : HubInput} {message : Nat} {taken : World}
    {hub : Hub} {outputs : List Output} (htakes : Takes w a input message taken)
    (hmoved : HubMoved w a (World.applyOutputs message { taken with hub := hub } outputs))
    (hI : Received w) (hother : ∀ msg, input = .hubMsg msg → affirmed msg = none)
    (hpublish : hub.rxPublish = w.hub.rxPublish) (hids : hub.rxPublishId = w.hub.rxPublishId)
    (hspecs : ∀ spec ∈ startedSpecs outputs, rxId spec = none)
    (hquiet : ∀ output ∈ outputs, (∀ publish, output ≠ .rxAccepted publish) ∧
      ∀ publish, output = .dispatch (.Publish publish) → publish.qos.packetId = none) :
    Received (World.applyOutputs message { taken with hub := hub } outputs) := by
  obtain ⟨events, hlog, hevents⟩ := log_of_takes htakes hub outputs
  have htasks := tasks_of_takes htakes hub outputs
  have hhub := (applyOutputs_grown { taken with hub := hub } message outputs).hub
  refine hI.plain (by rw [hhub]; exact hpublish) (by rw [hhub]; exact hids) hlog ?_ ?_
    (fun id i hwaits => .inl (unreleased_of_hub hmoved hwaits))
  · intro event hevent id
    cases hevents event hevent with
    | @user event hmem =>
      cases event with
      | Publish publish => simp [about, (hquiet _ hmem).2 publish rfl]
      | _ => rfl
    | rxAccepted hmem => exact absurd rfl ((hquiet _ hmem).1 _)
    | _ => rfl
  · intro id i
    by_cases hi : i < w.tasks.length
    · exact affirms_of_input hI htakes hmoved hother hi ▸ List.prefix_rfl
    · rw [affirms_of_started htasks hspecs (by omega)]
      exact List.nil_prefix

theorem received_of_hub (hrouted : Routed w) (hsourced : Sourced w) {a : HubAction}
    (h : HubMoved w a w') (hI : Received w) : Received w' := by
  have hmoved := h
  cases h with
  | @intro input message taken hub outputs htakes hmove =>
    have htasks := tasks_of_takes htakes hub outputs
    have plain := received_of_plain htakes hmoved hI
    cases hmove with
    | rxQos0 hat hqos =>
      refine plain (by rintro msg ⟨⟩; rfl) rfl rfl (by simp [startedSpecs]) ?_
      simp [hqos, QoSWithPacketId.packetId]
    | resendEntry hat hentry =>
      exact plain (by rintro msg ⟨⟩) rfl rfl (by simp [startedSpecs, rxId_toAcknowledge]) (by simp)
    | accept hat hid hpop hfresh =>
      exact plain (by rintro msg ⟨⟩) rfl rfl (by simp [startedSpecs, rxId_toAcknowledge]) (by simp)
    | rxDup _ _ _ | recoverNone _ _ | recoverDone _ _ _ _ _ | recoverRel _ _ _ | pingSuccess _
    | pingFail _ | keepAlive _ | keepAliveOld _ _ =>
      exact plain (by rintro msg ⟨⟩; rfl) rfl rfl (by simp [startedSpecs, rxId]) (by simp)
    | @rxAccept publish packetId protocol spec hat hfree hspec =>
      cases htakes with
      | hubMsg htake =>
        have hstarted : StartedFor publish packetId spec := by
          rcases hspec with ⟨hqos, rfl⟩ | ⟨hqos, rfl⟩
          · exact .qos1 hqos
          · exact .qos2 hqos
        exact received_of_rxAccept hrouted hI htake hmoved hfree hstarted htasks rfl rfl rfl
    | @affirmRxId packetId hat =>
      cases htakes with
      | @hubMsg j sender msg message rest htake =>
        obtain ⟨k, hheard⟩ := heard_of_take hsourced hmoved htake rfl rfl
        exact hI.affirmId hheard rfl rfl [.hubTook sender (.AffirmRxId packetId)] rfl
          (by simp [about]) fun id i hwaits => unreleased_of_hub hmoved hwaits
    | affirmRxPublish hat hheld =>
      cases htakes with
      | hubMsg htake =>
        obtain ⟨k, hheard⟩ := heard_of_take hsourced hmoved htake rfl rfl
        exact received_of_affirmRxPublish hI hmoved hheard hheld rfl rfl rfl
    | @affirmRxPublishNone packetId hat hheld =>
      cases htakes with
      | @hubMsg j sender msg message rest htake =>
        obtain ⟨k, hheard⟩ := heard_of_take hsourced hmoved htake rfl rfl
        have same := (hheld ▸ Function.update_eq_self packetId w.hub.rxPublish).symm
        exact received_of_affirmRxPublishNone hI hheard same rfl rfl
          fun id i hwaits => unreleased_of_hub hmoved hwaits
    | _ => exact plain (by rintro msg ⟨⟩) rfl rfl (by simp [startedSpecs, rxId]) (by simp)

end Steps

theorem received_of_moved {w w' : World} {action : Action} (hrouted : Routed w)
    (hsourced : Sourced w) (h : Moved w action w') (hI : Received w) : Received w' := by
  rcases hub_or_not h with ⟨a, rfl, hmoved⟩ | notHub
  · exact received_of_hub hrouted hsourced hmoved hI
  · exact received_of_outside hrouted h notHub hI

/-- The invariants that hold together. -/
structure Background (w : World) : Prop where
  track : OnTrack w
  routed : Routed w
  sourced : Sourced w
  received : Received w

theorem background_of_moved {w w' : World} {action : Action} (h : Moved w action w')
    (hI : Background w) : Background w' where
  track := onTrack_of_moved h hI.track
  routed := routed_of_moved h hI.routed
  sourced := sourced_of_moved hI.track h hI.sourced
  received := received_of_moved hI.routed hI.sourced h hI.received

theorem background_init (options : MqttOptions) (protocol : Protocol) :
    Background (.init options protocol) where
  track := by
    intro i task hget
    cases hget
  routed := ⟨fun e he => absurd he List.not_mem_nil, fun e he => absurd he List.not_mem_nil⟩
  sourced := fun e he => absurd he List.not_mem_nil
  received :=
    { shape := fun _ _ => .none
      keys := fun _ h => nomatch h
      held := fun _ _ h => absurd rfl h
      alone := fun _ _ _ h => absurd rfl h
      waiting := fun _ _ h => nomatch h
      entered := fun _ _ h => nomatch h
      faithful := trivial }

theorem reachable_background {ok : World → Action → Prop} {options : MqttOptions}
    {protocol : Protocol} {w : World}
    (h : Reachable World.step ok (.init options protocol) w) : Background w := by
  refine h.invariant (background_init options protocol) ?_
  intro w action w' _ ih _ hstep
  exact background_of_moved (moved_of_step hstep) ih

end Receiving
