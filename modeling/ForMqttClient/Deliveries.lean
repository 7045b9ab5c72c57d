import ForMqttClient.Receiving

/-!
# Deliveries to the user, and the owners of received ids

What the invariant of the receive side says about a run: no publish with an id
reaches the user twice, and an id that is held has somebody left to release it
as long as no receive task ends by an error.
-/

namespace Deliveries

open MqttData TaskHub HubSteps Tasks System SystemSteps TaskRuns GuardedRuns Receiving

/-! ## At most once -/

/-- Between two publishes of one id that are handed to the user, the hub has
accepted the later one. -/
theorem accepted_between {between older : List Event} {publish earlier : Publish} {id : PacketId}
    (h : Due id publish (between ++ .user (.Publish earlier) :: older))
    (hid : earlier.qos.packetId = some id) :
    ∃ i message, .rxAccepted i publish message ∈ between := by
  obtain ⟨i, since, ⟨⟨spec, message, before, _, hsplit⟩, hquiet⟩, _⟩ := h
  refine ⟨i, message, ?_⟩
  have hloud : about id (.user (.Publish earlier)) = true := by simp [about, hid]
  rcases List.append_eq_append_iff.mp hsplit with ⟨rest, hsince, hrest⟩ | ⟨rest, hbetween, hrest⟩
  · cases rest with
    | nil => cases hrest
    | cons event rest =>
      obtain ⟨rfl, _⟩ := List.cons.inj hrest
      have hmem : .user (.Publish earlier) ∈ since := by
        rw [hsince]
        exact List.mem_append_right _ List.mem_cons_self
      rw [hquiet _ hmem] at hloud
      cases hloud
  · cases rest with
    | nil => cases hrest
    | cons first rest =>
      obtain ⟨_, htail⟩ := List.cons.inj hrest
      cases rest with
      | nil => cases htail
      | cons second rest =>
        obtain ⟨rfl, _⟩ := List.cons.inj htail
        rw [hbetween]
        exact List.mem_append_right _ (List.mem_cons_of_mem _ List.mem_cons_self)

theorem affirm_of_live {task : Tasks.Task} {id : PacketId} (htrack : task.prog <:+ task.spec.run)
    (hserves : rxId task.spec = some id) (hlive : task.live = true) :
    .AffirmRxId id ∈ toDispatch task.prog := by
  have hne : task.prog ≠ [] := by
    intro hnil
    simp [Task.live, hnil] at hlive
  have hlast : task.prog.getLast hne = .dispatch (.AffirmRxId id) := by
    rw [htrack.getLast hne]
    generalize htrack.ne_nil hne = hrun
    revert hserves hrun
    cases task.spec <;> rintro ⟨⟩ _ <;> rfl
  have hmem : .dispatch (.AffirmRxId id) ∈ task.prog := hlast ▸ List.getLast_mem hne
  exact List.mem_filterMap.mpr ⟨_, hmem, rfl⟩

theorem affirms_of_live {w : World} (hI : Background w) {i : Nat} {task : Tasks.Task}
    {id : PacketId} (hget : w.tasks[i]? = some task) (hserves : rxId task.spec = some id)
    (hlive : task.live = true) : .AffirmRxId id ∈ affirms w id i := by
  have hserved : serves w i = some id := by rw [serves, hget, Option.bind_some, hserves]
  rw [affirms_of_serves hserved, pending_eq hget]
  exact List.mem_append_right _ (affirm_of_live (hI.track i task hget) hserves hlive)

/-- Of two live receive tasks for one id there is only one. -/
theorem one_receiver {w : World} (hI : Background w) {i k : Nat} {task task' : Tasks.Task}
    {id : PacketId} (hget : w.tasks[i]? = some task) (hget' : w.tasks[k]? = some task')
    (hserves : rxId task.spec = some id) (hserves' : rxId task'.spec = some id)
    (hlive : task.live = true) (hlive' : task'.live = true) : i = k :=
  hI.received.alone id i k (List.ne_nil_of_mem (affirms_of_live hI hget hserves hlive))
    (List.ne_nil_of_mem (affirms_of_live hI hget' hserves' hlive'))

/-- Every publish with an id is handed to the user at most once, as it was
accepted, and with QoS2 only after the PUBREL; there is one receive task per
id, and the keys of `rx_publish` are among those of `rx_publish_id`. -/
theorem received_at_most_once {options : MqttOptions} {protocol : Protocol} {w : World}
    (h : Reachable World.step free (.init options protocol) w) :
    (∀ id, (w.hub.rxPublish id).isSome = true → (w.hub.rxPublishId id).isSome = true) ∧
    (∀ (i k : Nat) (task task' : Tasks.Task) (id : PacketId), w.tasks[i]? = some task →
      w.tasks[k]? = some task' → rxId task.spec = some id → rxId task'.spec = some id →
      task.live = true → task'.live = true → i = k) ∧
    (∀ newer older publish id, w.log = newer ++ .user (.Publish publish) :: older →
      publish.qos.packetId = some id →
      ∃ i since, Accepted id publish i since older ∧
        (publish.qos = .ExactlyOnce id → .acked i (.PubRel id) ∈ since)) ∧
    (∀ newer between older publish earlier id,
      w.log = newer ++ .user (.Publish publish) ::
        (between ++ .user (.Publish earlier) :: older) →
      publish.qos.packetId = some id → earlier.qos.packetId = some id →
      ∃ i message, .rxAccepted i publish message ∈ between) := by
  have hI := reachable_background h
  refine ⟨hI.received.keys, ?_, ?_, ?_⟩
  · intro i k task task' id hget hget' hserves hserves' hlive hlive'
    exact one_receiver hI hget hget' hserves hserves' hlive hlive'
  · intro newer older publish id hlog hid
    have hfaithful := hI.received.faithful
    rw [hlog] at hfaithful
    exact Throughout.split hfaithful publish id rfl hid
  · intro newer between older publish earlier id hlog hid hid'
    have hfaithful := hI.received.faithful
    rw [hlog] at hfaithful
    exact accepted_between (Throughout.split hfaithful publish id rfl hid) hid'

/-- The laws at the end of a whole QoS2 exchange. -/
theorem received_at_most_once_after_pubrel :
    ∃ w, guardedRun World.step free (.init ⟨60, true⟩ .V4)
        [.hub (.connect 0), .network 0 (.connected false), .hub (.connecting 0), .hub .load,
          .hub .resend,
          .broker 0 (.send (.Publish (.new "a" (.ExactlyOnce 3) [] false .V4)) 1),
          .network 0 .read, .hub (.recv 1), .task 0 .run, .network 0 (.take 1 none),
          .task 0 .receipt, .broker 0 .recv, .broker 0 (.send (.Ack (.PubRel 3)) 0),
          .network 0 .read, .task 0 (.ack 1), .task 0 .run, .hub (.recv 1)] = some w ∧
      ∀ newer older publish id, w.log = newer ++ .user (.Publish publish) :: older →
        publish.qos.packetId = some id →
        ∃ i since, Accepted id publish i since older ∧
          (publish.qos = .ExactlyOnce id → .acked i (.PubRel id) ∈ since) :=
  end_of_guardedRun _ (by decide +kernel) (fun _ h => (received_at_most_once h).2.2.1)

/-! ## Owners of received ids -/

/-- A held packet id has a live receive task, or its `AffirmRxId` is queued. -/
def OwnedAt (w : World) (id : PacketId) : Prop :=
  (w.hub.rxPublishId id).isSome = true →
    (∃ task ∈ w.tasks, rxId task.spec = some id ∧ task.live = true) ∨ w.queued (.AffirmRxId id)

instance (w : World) (id : PacketId) : Decidable (OwnedAt w id) :=
  inferInstanceAs (Decidable (_ → _ ∨ _))

def Owned (w : World) : Prop := ∀ id, OwnedAt w id

/-- No receive task ends by an error in this step. -/
def receiversSurvive (w : World) : Action → Bool
  | .task i .receiptErr =>
    match w.tasks[i]? with
    | some task => !(task.live && (rxId task.spec).isSome)
    | none => true
  | _ => true

theorem owner_iff {w : World} (hI : Background w) (id : PacketId) :
    ((∃ task ∈ w.tasks, rxId task.spec = some id ∧ task.live = true) ∨
      w.queued (.AffirmRxId id)) ↔ ∃ i, .AffirmRxId id ∈ affirms w id i := by
  constructor
  · rintro (⟨task, hmem, hserves, hlive⟩ | ⟨e, hmem, hreceiver, hevent⟩)
    · obtain ⟨i, hget⟩ := List.getElem?_of_mem hmem
      exact ⟨i, affirms_of_live hI hget hserves hlive⟩
    · obtain ⟨i, hsender, hserves⟩ := hI.sourced e hmem _ id hevent rfl
      refine ⟨i, ?_⟩
      rw [affirms_of_serves hserves]
      exact List.mem_append_left _ (mem_queuedFrom.mpr ⟨e, hmem, hsender, hreceiver, hevent⟩)
  · rintro ⟨i, hmem⟩
    have hserves := serves_of_affirms (List.ne_nil_of_mem hmem)
    obtain ⟨task, hget, hrx⟩ := Option.bind_eq_some_iff.mp hserves
    rw [affirms_of_serves hserves, pending_eq hget] at hmem
    rcases List.mem_append.mp hmem with hqueued | hleft
    · obtain ⟨e, he, _, hreceiver, hevent⟩ := mem_queuedFrom.mp hqueued
      exact .inr ⟨e, he, hreceiver, hevent⟩
    · refine .inl ⟨task, List.mem_of_getElem? hget, hrx, ?_⟩
      cases hprog : task.prog with
      | nil =>
        rw [hprog] at hleft
        cases hleft
      | cons instr rest => simp [Task.live, hprog]

theorem count_le_of_shape {id : PacketId} {msgs : List HubMsg} (h : Shape id msgs) :
    msgs.count (.AffirmRxId id) ≤ 1 := by
  cases h <;> simp

/-- The id of an entry that the hub still holds after a step was held before,
or a task was started for it. -/
theorem held_of_move {keepAliveId : Nat} {hub hub' : Hub} {input : HubInput}
    {outputs : List Output} (h : Move keepAliveId hub input hub' outputs) {id : PacketId}
    (hheld : (hub'.rxPublishId id).isSome = true) :
    (hub.rxPublishId id).isSome = true ∧ input ≠ .hubMsg (.AffirmRxId id) ∨
      ∃ spec ∈ startedSpecs outputs, rxId spec = some id := by
  cases h with
  | @rxAccept publish packetId protocol spec hat hfree hspec =>
    by_cases heq : id = packetId
    · right
      refine ⟨spec, by simp [startedSpecs], ?_⟩
      rcases hspec with ⟨_, rfl⟩ | ⟨_, rfl⟩ <;> exact congrArg some heq.symm
    · exact .inl ⟨by simpa [heq] using hheld, by simp⟩
  | @affirmRxId packetId hat =>
    by_cases heq : id = packetId
    · simp [heq] at hheld
    · exact .inl ⟨by simpa [heq] using hheld, by simpa using Ne.symm heq⟩
  | _ => exact .inl ⟨hheld, by simp⟩

section Owners

variable {w w' : World} {action : Action}

theorem owned_of_hub (hI : Background w) (hI' : Background w') (hP : Owned w) {a : HubAction}
    (h : HubMoved w a w') : Owned w' := by
  intro id hheld
  have hmoved := h
  cases h with
  | @intro input message taken hub outputs htakes hmove =>
    have hhub := (applyOutputs_grown { taken with hub := hub } message outputs).hub
    have htasks := applyOutputs_tasks { taken with hub := hub } message outputs
    rw [hhub] at hheld
    rcases held_of_move hmove hheld with ⟨hbefore, hinput⟩ | ⟨spec, hspec, hserves⟩
    · apply (owner_iff hI' id).mpr
      obtain ⟨i, hmem⟩ := (owner_iff hI id).mp (hP id hbefore)
      have hserves := serves_of_affirms (List.ne_nil_of_mem hmem)
      rw [affirms_of_hub hmoved (lt_of_serves hserves), if_pos hserves] at hmem
      rcases List.mem_append.mp hmem with htaken | hleft
      · exact absurd (input_of_takenFrom htakes htaken) hinput
      · exact ⟨i, hleft⟩
    · refine .inl ⟨.init spec, ?_, hserves, ?_⟩
      · rw [htasks]
        exact List.mem_append_right _ (List.mem_map_of_mem hspec)
      · cases spec <;> rfl

/-- A live receive task that ends by an error leaves its id without an owner. -/
theorem orphaned_of_receiptErr (hI : Background w) (hI' : Background w') {i : Nat}
    {task : Tasks.Task} {id : PacketId} (hget : w.tasks[i]? = some task)
    (hserves : rxId task.spec = some id) (hlive : task.live = true)
    (h : Moved w (.task i .receiptErr) w') : ¬ OwnedAt w' id := by
  intro howned
  have hserved : serves w i = some id := by rw [serves, hget, Option.bind_some, hserves]
  have hmem := affirms_of_live hI hget hserves hlive
  have hhub : w'.hub = w.hub := (hub_of_moved h (by simp)).1
  have hheld : (w'.hub.rxPublishId id).isSome = true := by
    rw [hhub]
    exact hI.received.held id i (List.ne_nil_of_mem hmem)
  obtain ⟨k, hk⟩ := (owner_iff hI' id).mp (howned hheld)
  have hpart : affirms w' id k <+: affirms w id k := affirms_prefix_of_outside h (by simp)
  obtain rfl : k = i := hI.received.alone id k i
    (List.ne_nil_of_mem (hpart.subset hk)) (List.ne_nil_of_mem hmem)
  have hqueued : affirms w' id k = queuedFrom w.bus k := by
    have hserved' := (serves_of_moved h (lt_of_serves hserved)).trans hserved
    rw [affirms_of_serves hserved']
    cases h with
    | task hget' hmoved =>
      cases hmoved with
      | died hphase hlost =>
        have hget'' : (w.tasks.set k { task with prog := [], phase := .ready })[k]? =
            some { task with prog := [], phase := .ready } :=
          List.getElem?_set_self (List.getElem?_eq_some_iff.mp hget).1
        cases hget.symm.trans hget'
        exact (pending_eq hget'').trans (List.append_nil _)
  have hshape := hI.received.shape id k
  have honce := count_le_of_shape hshape
  rw [affirms_of_serves hserved, pending_eq hget, ← hqueued, List.count_append] at honce
  have hfirst := List.count_pos_iff.mpr hk
  have hsecond := List.count_pos_iff.mpr (affirm_of_live (hI.track k task hget) hserves hlive)
  omega

theorem owned_step (hI : Background w) (hP : Owned w) (h : Moved w action w') :
    receiversSurvive w action = true ↔ Owned w' := by
  have hI' := background_of_moved h hI
  rcases hub_or_not h with ⟨a, rfl, hmoved⟩ | notHub
  · exact iff_of_true rfl (owned_of_hub hI hI' hP hmoved)
  constructor
  · intro hok id hheld
    apply (owner_iff hI' id).mpr
    rw [(hub_of_moved h notHub).1] at hheld
    obtain ⟨i, hmem⟩ := (owner_iff hI id).mp (hP id hheld)
    rcases @affirms_of_outside w w' action id i h notHub with hsame | ⟨rfl, hserves, hqueued⟩
    · exact ⟨i, hsame ▸ hmem⟩
    · obtain ⟨task, hget, hrx⟩ := Option.bind_eq_some_iff.mp hserves
      have hdead : task.prog = [] := by
        simpa [receiversSurvive, hget, hrx, Task.live] using hok
      rw [affirms_of_serves hserves, pending_eq hget, hdead, ← hqueued] at hmem
      exact ⟨i, by simpa [toDispatch] using hmem⟩
  · intro howned
    by_contra hbad
    have hdies : ∃ i task, action = .task i .receiptErr ∧ w.tasks[i]? = some task ∧
        task.live = true ∧ (rxId task.spec).isSome = true := by
      unfold receiversSurvive at hbad
      split at hbad
      · split at hbad
        · next i _ task hget =>
          exact ⟨i, task, rfl, hget, by simpa [Option.isSome_iff_ne_none] using hbad⟩
        · exact absurd rfl hbad
      · exact absurd rfl hbad
    obtain ⟨i, task, rfl, hget, hlive, hrx⟩ := hdies
    obtain ⟨id, hserves⟩ := Option.isSome_iff_exists.mp hrx
    exact orphaned_of_receiptErr hI hI' hget hserves hlive h (howned id)

end Owners

end Deliveries
