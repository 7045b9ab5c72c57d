import ForMqttClient.SystemSteps

/-!
# What holds of the tasks in every run

A task keeps the spec that the hub started it with and works its list of
awaits off from the front; an error drops the rest. Whatever names a task, on
the bus or in the history, names one that was started.
-/

namespace TaskRuns

open MqttData TaskHub HubSteps Tasks System SystemSteps GuardedRuns

section OneStep

variable {w w' : World} {action : Action} {i : Nat}

theorem suffix_of_taskMoved {k : Nat} {task task' : Task} {a : TaskAction}
    (hget : w.tasks[i]? = some task) (h : TaskMoved w i task a w')
    (hget' : w'.tasks[k]? = some task') :
    ∃ before, w.tasks[k]? = some before ∧ task'.spec = before.spec ∧ task'.prog <:+ before.prog := by
  have hlt := (List.getElem?_eq_some_iff.mp hget).1
  have replaced {after : Task} (htasks : w'.tasks = w.tasks.set i after)
      (hspec : after.spec = task.spec) (hprog : after.prog <:+ task.prog) :
      ∃ before, w.tasks[k]? = some before ∧ task'.spec = before.spec ∧
        task'.prog <:+ before.prog := by
    rw [htasks] at hget'
    by_cases hik : i = k
    · subst hik
      rw [List.getElem?_set_self hlt] at hget'
      obtain rfl := Option.some.inj hget'
      exact ⟨task, hget, hspec, hprog⟩
    · rw [List.getElem?_set_ne hik] at hget'
      exact ⟨task', hget', rfl, List.suffix_rfl⟩
  cases h with
  | skipped hphase hprog htake hrel => exact ⟨task', hget', rfl, List.suffix_rfl⟩
  | sendFirst hphase hprog => exact replaced rfl rfl List.suffix_rfl
  | sendOnly hphase hprog => exact replaced rfl rfl List.suffix_rfl
  | sendAgain hphase hprog => exact replaced rfl rfl List.suffix_rfl
  | transmitted hphase hprog hdone => exact replaced rfl rfl List.suffix_rfl
  | died hphase hlost => exact replaced rfl rfl List.nil_suffix
  | dispatch hphase hprog => exact replaced rfl rfl (hprog ▸ List.suffix_cons _ _)
  | txToUser hphase hprog => exact replaced rfl rfl (hprog ▸ List.suffix_cons _ _)
  | sent hphase hprog hdone => exact replaced rfl rfl (hprog ▸ List.suffix_cons _ _)
  | acked hphase hprog htake hrel => exact replaced rfl rfl (hprog ▸ List.suffix_cons _ _)

/-- The hub leaves the tasks that are there alone and appends new ones. -/
theorem tasks_of_hub {a : HubAction} (h : HubMoved w a w') :
    ∃ specs : List TaskSpec, w'.tasks = w.tasks ++ specs.map Task.init := by
  cases h with
  | @intro input message taken hub outputs htakes hmove =>
    exact ⟨startedSpecs outputs, tasks_of_takes htakes hub outputs⟩

/-- Each task after a step was there before, with the same spec and no shorter
list of awaits, or was started by this step. -/
theorem task_before (h : Moved w action w') {task' : Task} (hget' : w'.tasks[i]? = some task') :
    (∃ task, w.tasks[i]? = some task ∧ task'.spec = task.spec ∧ task'.prog <:+ task.prog) ∨
      w.tasks.length ≤ i ∧ ∃ spec, task' = Task.init spec := by
  rcases hub_or_not h with ⟨a, rfl, hmoved⟩ | notHub
  · obtain ⟨specs, htasks⟩ := tasks_of_hub hmoved
    rw [htasks] at hget'
    by_cases hlt : i < w.tasks.length
    · rw [List.getElem?_append_left hlt] at hget'
      exact .inl ⟨task', hget', rfl, List.suffix_rfl⟩
    · rw [List.getElem?_append_right (by omega), List.getElem?_map] at hget'
      obtain ⟨spec, _, rfl⟩ := Option.map_eq_some_iff.mp hget'
      exact .inr ⟨by omega, spec, rfl⟩
  · rcases task_or_not h with ⟨k, task, a, rfl, hget, hmoved⟩ | notTask
    · exact .inl (suffix_of_taskMoved hget hmoved hget')
    · rw [tasks_of_moved h notHub notTask] at hget'
      exact .inl ⟨task', hget', rfl, List.suffix_rfl⟩

theorem tasks_length_of_outside (h : Moved w action w') (hhub : ∀ a, action ≠ .hub a) :
    w'.tasks.length = w.tasks.length := by
  rcases task_or_not h with ⟨k, task, a, rfl, hget, hmoved⟩ | notTask
  · cases hmoved with
    | skipped hphase hprog htake hrel => rfl
    | _ => exact List.length_set
  · rw [tasks_of_moved h hhub notTask]

theorem tasks_length_le (h : Moved w action w') : w.tasks.length ≤ w'.tasks.length := by
  rcases hub_or_not h with ⟨a, rfl, hmoved⟩ | notHub
  · obtain ⟨specs, htasks⟩ := tasks_of_hub hmoved
    rw [htasks, List.length_append]
    omega
  · exact Nat.le_of_eq (tasks_length_of_outside h notHub).symm

end OneStep

/-- The messages that a task can have for the hub. -/
def taskMsg : HubMsg → Bool
  | .RecoverId _ | .AffirmRxId _ | .AffirmRxPublish _ => true
  | _ => false

theorem taskMsg_of_mem_run (spec : TaskSpec) {msg : HubMsg} (h : .dispatch msg ∈ spec.run) :
    taskMsg msg = true := by
  cases spec <;> simp [TaskSpec.run, transmitPublish] at h <;>
    (try rcases h with rfl | rfl) <;> rfl

/-- What is left to do of every task is a final part of its `run`. -/
def OnTrack (w : World) : Prop :=
  ∀ (i : Nat) (task : Tasks.Task), w.tasks[i]? = some task → task.prog <:+ task.spec.run

theorem onTrack_of_moved {w w' : World} {action : Action} (h : Moved w action w')
    (hI : OnTrack w) : OnTrack w' := by
  intro i task' hget'
  rcases task_before h hget' with ⟨task, hget, hspec, hprog⟩ | ⟨_, spec, rfl⟩
  · rw [hspec]
    exact hprog.trans (hI i task hget)
  · exact List.suffix_rfl

theorem reachable_onTrack {ok : World → Action → Prop} {options : MqttOptions}
    {protocol : Protocol} {w : World}
    (h : Reachable World.step ok (.init options protocol) w) : OnTrack w := by
  refine h.invariant ?_ ?_
  · intro i task hget
    cases hget
  · intro w action w' _ ih _ hstep
    exact onTrack_of_moved (moved_of_step hstep) ih

theorem OnTrack.taskMsg {w : World} (hI : OnTrack w) {i : Nat} {task : Task} {msg : HubMsg}
    {rest : List Instr} (hget : w.tasks[i]? = some task)
    (hprog : task.prog = .dispatch msg :: rest) : taskMsg msg = true := by
  apply taskMsg_of_mem_run task.spec
  apply (hI i task hget).subset
  rw [hprog]
  exact List.mem_cons_self

/-! ## From a task to the hub -/

/-- The messages of a task that wait for the hub, oldest first. -/
def queuedFrom (bus : List Envelope) (i : Nat) : List HubMsg :=
  (PairFifo.channel Envelope.channel (.task i, .hub) bus).filterMap
    (fun envelope => match envelope.event with | .hubMsg msg => some msg | _ => none)

/-- The messages that a task has yet to dispatch. -/
def toDispatch (prog : List Instr) : List HubMsg :=
  prog.filterMap (fun instr => match instr with | .dispatch msg => some msg | _ => none)

/-- All messages of a task that the hub has not taken, in the order in which it
will take them if the task does not die. -/
def pending (w : World) (i : Nat) : List HubMsg :=
  queuedFrom w.bus i ++ w.tasks[i]?.elim [] (fun task => toDispatch task.prog)

section Queues

variable {w w' : World} {action : Action} {i : Nat}

theorem mem_queuedFrom {bus : List Envelope} {msg : HubMsg} :
    msg ∈ queuedFrom bus i ↔
      ∃ e ∈ bus, e.sender = .task i ∧ e.receiver = .hub ∧ e.event = .hubMsg msg := by
  constructor
  · intro h
    obtain ⟨e, he, hevent⟩ := List.mem_filterMap.mp h
    obtain ⟨hmem, hchannel⟩ := PairFifo.mem_channel.mp he
    refine ⟨e, hmem, congrArg Prod.fst hchannel, congrArg Prod.snd hchannel, ?_⟩
    split at hevent
    · next heq => rw [heq, Option.some.inj hevent]
    · cases hevent
  · rintro ⟨e, hmem, hsender, hreceiver, hevent⟩
    refine List.mem_filterMap.mpr ⟨e, PairFifo.mem_channel.mpr ⟨hmem, ?_⟩, by rw [hevent]⟩
    rw [Envelope.channel, hsender, hreceiver]

theorem queuedFrom_append (bus : List Envelope) {new : List Envelope}
    (hnew : ∀ e ∈ new, e.channel ≠ (.task i, .hub)) :
    queuedFrom (bus ++ new) i = queuedFrom bus i := by
  rw [queuedFrom, PairFifo.channel_append_of_ne bus hnew, ← queuedFrom]

theorem queuedFrom_dispatch (bus : List Envelope) (msg : HubMsg) (message : Nat) :
    queuedFrom (bus ++ [⟨.task i, .hub, .hubMsg msg, message⟩]) i = queuedFrom bus i ++ [msg] := by
  simp [queuedFrom, PairFifo.channel, Envelope.channel]

theorem queuedFrom_take {j : Nat} {event : BusEvent} {message : Nat} {rest : List Envelope}
    (htake : PairFifo.take Envelope.channel w.bus j =
      some (⟨.task i, .hub, event, message⟩, rest)) :
    queuedFrom w.bus i =
      (match event with | .hubMsg msg => [msg] | _ => []) ++ queuedFrom rest i := by
  have head : PairFifo.channel Envelope.channel (.task i, .hub) w.bus = _ :=
    PairFifo.channel_take htake
  rw [queuedFrom, head]
  cases event <;> rfl

theorem queuedFrom_take_of_ne {j : Nat} {envelope : Envelope} {rest : List Envelope}
    (htake : PairFifo.take Envelope.channel w.bus j = some (envelope, rest))
    (hne : envelope.channel ≠ (.task i, .hub)) : queuedFrom rest i = queuedFrom w.bus i := by
  rw [queuedFrom, queuedFrom, PairFifo.channel_take_of_ne htake hne]

/-- Only the run of task `i` puts a message of task `i` in the hub's queue. -/
theorem channel_of_emission {e : Envelope} (h : Emission w action e)
    (haction : action ≠ .task i .run) : e.channel ≠ (.task i, .hub) := by
  intro heq
  have hreceiver : e.receiver = .hub := congrArg Prod.snd heq
  cases h with
  | task hget hphase hprog =>
    cases heq
    exact haction rfl
  | mqtt => cases hreceiver
  | data => cases hreceiver
  | _ => cases heq

theorem queuedFrom_of_other (h : Moved w action w') (hhub : ∀ a, action ≠ .hub a)
    (htask : ∀ a, action ≠ .task i a) : queuedFrom w'.bus i = queuedFrom w.bus i := by
  rw [queuedFrom, queuedFrom,
    channel_of_moved h (fun e he => channel_of_emission he (htask _)) ?_]
  intro j htaking
  cases htaking
  exact hhub _ rfl

/-- What the hub takes of task `i` by an action. -/
def takenFrom (w : World) (i : Nat) : HubAction → List HubMsg
  | .recv j =>
    match PairFifo.take Envelope.channel w.bus j with
    | some (⟨sender, _, .hubMsg msg, _⟩, _) => if sender = .task i then [msg] else []
    | _ => []
  | _ => []

theorem takenFrom_of_take {j message : Nat} {sender receiver : Worker} {msg : HubMsg}
    {rest : List Envelope} (htake : PairFifo.take Envelope.channel w.bus j =
      some (⟨sender, receiver, .hubMsg msg, message⟩, rest)) :
    takenFrom w i (.recv j) = if sender = .task i then [msg] else [] := by
  rw [takenFrom, htake]

theorem queuedFrom_of_hub {a : HubAction} (h : HubMoved w a w') :
    queuedFrom w.bus i = takenFrom w i a ++ queuedFrom w'.bus i := by
  cases h with
  | @intro input message taken hub outputs htakes hmove =>
    have kept : queuedFrom (World.applyOutputs message { taken with hub := hub } outputs).bus i =
        queuedFrom taken.bus i := by
      rw [queuedFrom, channel_applyOutputs rfl, ← queuedFrom]
    rw [kept]
    have other {j message : Nat} {sender receiver : Worker} {event : BusEvent}
        {rest : List Envelope} (htake : PairFifo.take Envelope.channel w.bus j =
          some (⟨sender, receiver, event, message⟩, rest)) (hne : receiver ≠ .hub) :
        queuedFrom w.bus i = queuedFrom rest i :=
      (queuedFrom_take_of_ne htake (fun heq => hne (congrArg Prod.snd heq))).symm
    cases htakes with
    | connecting htake => exact other htake (by simp)
    | network htake => exact other htake (by simp)
    | command htake => exact other htake (by simp)
    | @clientData j sender data message rest htake =>
      have nothing : takenFrom w i (.recv j) = [] := by rw [takenFrom, htake]
      rw [nothing, List.nil_append]
      by_cases hsender : sender = .task i
      · subst hsender
        exact queuedFrom_take htake
      · exact (queuedFrom_take_of_ne htake (fun heq => hsender (congrArg Prod.fst heq))).symm
    | @hubMsg j sender msg message rest htake =>
      rw [takenFrom_of_take htake]
      by_cases hsender : sender = .task i
      · subst hsender
        rw [if_pos rfl]
        exact queuedFrom_take htake
      · rw [if_neg hsender, List.nil_append]
        exact (queuedFrom_take_of_ne htake (fun heq => hsender (congrArg Prod.fst heq))).symm
    | _ => rfl

theorem pending_eq {task : Tasks.Task} (hget : w.tasks[i]? = some task) :
    pending w i = queuedFrom w.bus i ++ toDispatch task.prog := by
  rw [pending, hget, Option.elim_some]

/-- The bus after a send holds nothing new for the hub. -/
theorem queuedFrom_send (sender : Worker) (packet : Outgoing) :
    queuedFrom (w.send sender packet).bus i = queuedFrom w.bus i := by
  apply queuedFrom_append
  intro e he heq
  obtain ⟨receiver, hmem, rfl⟩ := List.mem_map.mp he
  obtain ⟨n, _, rfl⟩ := mem_subscribers_data.mp hmem
  cases heq

/-- A task passes its messages on to the queue, unless it dies. -/
theorem pending_of_taskMoved {task : Tasks.Task} {a : TaskAction}
    (hget : w.tasks[i]? = some task) (h : TaskMoved w i task a w') :
    pending w' i = pending w i ∨
      ∃ receipt, a = .receiptErr ∧ task.phase = .sending receipt ∧
        pending w' i = queuedFrom w.bus i := by
  have hlt := (List.getElem?_eq_some_iff.mp hget).1
  rw [pending_eq hget]
  have after {next : Tasks.Task} (htasks : w'.tasks = w.tasks.set i next) :
      pending w' i = queuedFrom w'.bus i ++ toDispatch next.prog := by
    apply pending_eq
    rw [htasks, List.getElem?_set_self hlt]
  cases h with
  | sendFirst hphase hprog =>
    left
    rw [after rfl]
    exact congrArg (· ++ _) (queuedFrom_send _ _)
  | sendOnly hphase hprog =>
    left
    rw [after rfl]
    exact congrArg (· ++ _) (queuedFrom_send _ _)
  | sendAgain hphase hprog =>
    left
    rw [after rfl]
    exact congrArg (· ++ _) (queuedFrom_send _ _)
  | @dispatch msg rest hphase hprog =>
    left
    rw [after rfl, hprog]
    have moved : queuedFrom (w.bus ++ [⟨.task i, .hub, .hubMsg msg, 0⟩]) i ++ toDispatch rest =
        queuedFrom w.bus i ++ toDispatch (.dispatch msg :: rest) := by
      rw [queuedFrom_dispatch, List.append_assoc]
      rfl
    exact moved
  | @txToUser msg rest hphase hprog =>
    left
    rw [after rfl, hprog]
    refine congrArg (· ++ _) (queuedFrom_append _ ?_)
    intro e he heq
    rw [List.mem_singleton.mp he] at heq
    cases heq
  | transmitted hphase hprog hdone =>
    left
    rw [after rfl]
    rfl
  | sent hphase hprog hdone =>
    left
    rw [after rfl, hprog]
    rfl
  | died hphase hlost =>
    right
    refine ⟨_, rfl, hphase, ?_⟩
    rw [after rfl]
    exact List.append_nil _
  | acked hphase hprog htake hrel =>
    left
    rw [after rfl, hprog]
    exact congrArg (· ++ _) (queuedFrom_take_of_ne htake (by simp [Envelope.channel]))
  | skipped hphase hprog htake hrel =>
    left
    rw [pending, hget]
    exact congrArg (· ++ _) (queuedFrom_take_of_ne htake (by simp [Envelope.channel]))

theorem pending_of_hub {a : HubAction} (h : HubMoved w a w') (hi : i < w.tasks.length) :
    pending w i = takenFrom w i a ++ pending w' i := by
  obtain ⟨specs, htasks⟩ := tasks_of_hub h
  have same : w'.tasks[i]? = w.tasks[i]? := by
    rw [htasks, List.getElem?_append_left hi]
  rw [pending, pending, queuedFrom_of_hub h, same, List.append_assoc]

theorem task_of_other (h : Moved w action w') (hhub : ∀ a, action ≠ .hub a)
    (htask : ∀ a, action ≠ .task i a) : w'.tasks[i]? = w.tasks[i]? := by
  rcases task_or_not h with ⟨k, task, a, rfl, hget, hmoved⟩ | notTask
  · have hki : k ≠ i := by
      rintro rfl
      exact htask a rfl
    cases hmoved with
    | skipped hphase hprog htake hrel => rfl
    | _ => exact List.getElem?_set_ne hki
  · rw [tasks_of_moved h hhub notTask]

theorem pending_of_other (h : Moved w action w') (hhub : ∀ a, action ≠ .hub a)
    (htask : ∀ a, action ≠ .task i a) : pending w' i = pending w i := by
  rw [pending, pending, queuedFrom_of_other h hhub htask, task_of_other h hhub htask]

/-- The message that the hub takes of a task is its input. -/
theorem input_of_takenFrom {a : HubAction} {input : HubInput} {message : Nat} {taken : World}
    {msg : HubMsg} (htakes : Takes w a input message taken) (hmem : msg ∈ takenFrom w i a) :
    input = .hubMsg msg := by
  cases htakes with
  | @clientData j sender data message rest htake =>
    rw [takenFrom, htake] at hmem
    cases hmem
  | @hubMsg j sender msg message rest htake =>
    rw [takenFrom_of_take htake] at hmem
    split at hmem
    · rw [List.mem_singleton.mp hmem]
    · cases hmem
  | _ => cases hmem

end Queues

/-! ## What names a task -/

/-- Whatever is on its way from or to a task names a task that was started,
and a task is sent only acknowledgements of the type it waits for. -/
structure Routed (w : World) : Prop where
  sender : ∀ e ∈ w.bus, ∀ i, e.sender = .task i → i < w.tasks.length
  receiver : ∀ e ∈ w.bus, ∀ (i : Nat) (ack : Ack), e.receiver = .task i → e.event = .ack ack →
    ∃ task, w.tasks[i]? = some task ∧ task.spec.rx = some ack.type

theorem spec_of_moved {w w' : World} {action : Action} (h : Moved w action w') {i : Nat}
    {task : Tasks.Task} (hget : w.tasks[i]? = some task) :
    ∃ task', w'.tasks[i]? = some task' ∧ task'.spec = task.spec := by
  have hlt := (List.getElem?_eq_some_iff.mp hget).1
  have hlt' : i < w'.tasks.length := Nat.lt_of_lt_of_le hlt (tasks_length_le h)
  have hget' : w'.tasks[i]? = some w'.tasks[i] := List.getElem?_eq_getElem hlt'
  rcases task_before h hget' with ⟨before, hbefore, hspec, _⟩ | ⟨hnew, _⟩
  · rw [hget] at hbefore
    cases hbefore
    exact ⟨_, hget', hspec⟩
  · omega

theorem rx_of_taskLive {w : World} {i : Nat} {type : AckType} (h : w.taskLive i type = true) :
    ∃ task, w.tasks[i]? = some task ∧ task.spec.rx = some type := by
  cases hget : w.tasks[i]? with
  | none => simp [World.taskLive, hget] at h
  | some task =>
    refine ⟨task, rfl, ?_⟩
    simp only [World.taskLive, hget, Bool.and_eq_true, beq_iff_eq] at h
    exact h.2

theorem routed_of_moved {w w' : World} {action : Action} (h : Moved w action w')
    (hI : Routed w) : Routed w' := by
  constructor
  · intro e he i hsender
    rcases mem_bus_of_moved h he with hmem | hnew
    · exact Nat.lt_of_lt_of_le (hI.sender e hmem i hsender) (tasks_length_le h)
    · have hspeaker := (sender_of_emission hnew).symm.trans hsender
      cases h with
      | task hget hmoved =>
        cases hspeaker
        exact Nat.lt_of_lt_of_le (List.getElem?_eq_some_iff.mp hget).1
          (tasks_length_le (.task hget hmoved))
      | _ => cases hspeaker
  · intro e he i ack hreceiver hevent
    rcases mem_bus_of_moved h he with hmem | hnew
    · obtain ⟨task, hget, hrx⟩ := hI.receiver e hmem i ack hreceiver hevent
      obtain ⟨task', hget', hspec⟩ := spec_of_moved h hget
      exact ⟨task', hget', hspec ▸ hrx⟩
    · cases hnew with
      | ack hget hfrom hlive =>
        cases hreceiver
        cases hevent
        obtain ⟨task, hget', hrx⟩ := rx_of_taskLive hlive
        obtain ⟨task', hget'', hspec⟩ := spec_of_moved h hget'
        exact ⟨task', hget'', hspec ▸ hrx⟩
      | _ => cases hreceiver

/-! ## Waiting for the acknowledgement -/

/-- Task `i` is at its first await, or has died there, and the hub has heard
nothing of it. -/
def Unacked (w : World) (i : Nat) (spec : TaskSpec) : Prop :=
  queuedFrom w.bus i = [] ∧ ∃ task, w.tasks[i]? = some task ∧ task.spec = spec ∧
    (task.prog = spec.run ∨ task.prog = [])

section Waiting

variable {w w' : World} {action : Action} {i : Nat} {spec : TaskSpec}

/-- Nobody speaks for a task before it is started. -/
theorem queuedFrom_nil (hrouted : Routed w) (hi : w.tasks.length ≤ i) :
    queuedFrom w.bus i = [] := by
  have none : PairFifo.channel Envelope.channel (.task i, .hub) w.bus = [] := by
    rw [PairFifo.channel, List.filter_eq_nil_iff]
    intro e he hchannel
    have := hrouted.sender e he i (congrArg Prod.fst (of_decide_eq_true hchannel))
    omega
  rw [queuedFrom, none]
  rfl

theorem queuedFrom_of_started (hrouted : Routed w) {a : HubAction} (h : HubMoved w a w') {i : Nat}
    (hi : w.tasks.length ≤ i) : queuedFrom w'.bus i = [] := by
  have hsplit : queuedFrom w.bus i = takenFrom w i a ++ queuedFrom w'.bus i := queuedFrom_of_hub h
  rw [queuedFrom_nil hrouted hi] at hsplit
  exact (List.append_eq_nil_iff.mp hsplit.symm).2

theorem unacked_of_started (hrouted : Routed w) {a : HubAction} (h : HubMoved w a w')
    (hi : w.tasks.length ≤ i) (hget : w'.tasks[i]? = some (.init spec)) : Unacked w' i spec :=
  ⟨queuedFrom_of_started hrouted h hi, .init spec, hget, rfl, .inl rfl⟩

/-- The task that a step of the hub says to have started. -/
theorem task_of_inside {message : Nat} {outputs : List Output}
    (htasks : w'.tasks = w.tasks ++ (startedSpecs outputs).map Task.init)
    (h : Inside w.tasks.length message outputs (.started i spec)) :
    w.tasks.length ≤ i ∧ w'.tasks[i]? = some (.init spec) := by
  cases h with
  | started hi hget =>
    refine ⟨hi, ?_⟩
    rw [htasks, List.getElem?_append_right hi, List.getElem?_map, hget]
    rfl

theorem unacked_of_hub {a : HubAction} (h : HubMoved w a w') (hI : Unacked w i spec) :
    Unacked w' i spec := by
  obtain ⟨hqueue, task, hget, hspec, hprog⟩ := hI
  have hsplit : queuedFrom w.bus i = takenFrom w i a ++ queuedFrom w'.bus i := queuedFrom_of_hub h
  rw [hqueue] at hsplit
  obtain ⟨specs, htasks⟩ := tasks_of_hub h
  refine ⟨(List.append_eq_nil_iff.mp hsplit.symm).2, task, ?_, hspec, hprog⟩
  rw [htasks, List.getElem?_append_left (List.getElem?_eq_some_iff.mp hget).1]
  exact hget

/-- A task that leaves its first await alive has taken the acknowledgement. -/
theorem unacked_of_outside (hrouted : Routed w) (h : Moved w action w')
    (hhub : ∀ a, action ≠ .hub a) {events : List Event} (hlog : w'.log = events ++ w.log)
    {data dupData : Outgoing} {packetId : PacketId} {rest : List Instr} {type : AckType}
    (hrun : spec.run = .transmit data dupData packetId :: rest) (hrx : spec.rx = some type)
    (hI : Unacked w i spec) :
    Unacked w' i spec ∨
      ∃ ack : Ack, ack.type = type ∧ ack.packetId = packetId ∧ .acked i ack ∈ events := by
  obtain ⟨hqueue, task, hget, hspec, hprog⟩ := hI
  by_cases htask : ∃ a, action = .task i a
  · obtain ⟨a, rfl⟩ := htask
    cases h with
    | task hget' hmoved =>
      cases hget.symm.trans hget'
      have hlt := (List.getElem?_eq_some_iff.mp hget).1
      have first : ∀ instr tail, task.prog = instr :: tail →
          instr = .transmit data dupData packetId := by
        intro instr tail hcons
        rcases hprog with hwhole | hnil
        · rw [hcons, hrun] at hwhole
          exact (List.cons.inj hwhole).1
        · rw [hnil] at hcons
          cases hcons
      have stays {after : Tasks.Task} (htasks : w'.tasks = w.tasks.set i after)
          (hbus : queuedFrom w'.bus i = queuedFrom w.bus i) (hsame : after.spec = task.spec)
          (hleft : after.prog = task.prog ∨ after.prog = []) :
          Unacked w' i spec ∨
            ∃ ack : Ack, ack.type = type ∧ ack.packetId = packetId ∧ .acked i ack ∈ events := by
        refine .inl ⟨hbus.trans hqueue, after, ?_, hsame.trans hspec, ?_⟩
        · rw [htasks, List.getElem?_set_self hlt]
        · rcases hleft with hleft | hleft
          · rw [hleft]
            exact hprog
          · exact .inr hleft
      cases hmoved with
      | sendFirst hphase hcons => exact stays rfl (queuedFrom_send _ _) rfl (.inl rfl)
      | sendAgain hphase hcons => exact stays rfl (queuedFrom_send _ _) rfl (.inl rfl)
      | transmitted hphase hcons hdone => exact stays rfl rfl rfl (.inl rfl)
      | died hphase hlost => exact stays rfl rfl rfl (.inr rfl)
      | skipped hphase hcons htake hrel =>
        exact .inl ⟨(queuedFrom_take_of_ne htake (by simp [Envelope.channel])).trans hqueue,
          task, hget, hspec, hprog⟩
      | @acked j sender ack message queue data' dupData' packetId' tail hphase hcons htake hrel =>
        right
        obtain ⟨task', hget'', htype⟩ :=
          hrouted.receiver _ (PairFifo.mem_of_take htake) i ack rfl rfl
        cases hget.symm.trans hget''
        cases first _ _ hcons
        rw [hspec, hrx] at htype
        have hevents : [.acked i ack] = events := List.append_cancel_right hlog
        refine ⟨ack, (Option.some.inj htype).symm, of_decide_eq_true hrel, ?_⟩
        rw [← hevents]
        exact List.mem_singleton_self _
      | sendOnly hphase hcons => cases first _ _ hcons
      | dispatch hphase hcons => cases first _ _ hcons
      | txToUser hphase hcons => cases first _ _ hcons
      | sent hphase hcons hdone => cases first _ _ hcons
  · have hother : ∀ a, action ≠ .task i a := fun a ha => htask ⟨a, ha⟩
    exact .inl ⟨(queuedFrom_of_other h hhub hother).trans hqueue, task,
      (task_of_other h hhub hother).trans hget, hspec, hprog⟩

end Waiting

end TaskRuns
