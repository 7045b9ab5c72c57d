import ForMqttClient.HandedOn

/-!
# QoS 2 with a broker that keeps to it

The broker answers a PUBLISH by PUBREC while it keeps the packet id, and a PUBREL by
PUBCOMP when it keeps it no longer. Packets and answers that are left of an earlier
request under the same id come first on each connection, so that the task of a phase
takes only an answer to its own packet.
-/

namespace ExactlyOnce

open MqttData TaskHub HubSteps PacketIds Tasks System SystemSteps TaskRuns GuardedRuns
open Handshake StaleRecovers Orphans TwoPhase HandedOn

/-- What the client is told of packet id `p`. -/
def answer (p : PacketId) : Packet → Option Answer
  | .Ack (.PubRec packetId) => if packetId = p then some .taken else none
  | .Ack (.PubComp packetId) => if packetId = p then some .freed else none
  | _ => none

/-- What the live connection has for the client. -/
def incoming (w : World) : List (Packet × Nat) :=
  match w.networks[w.networks.length - 1]? with
  | some network => if network.live then network.fromBroker else []
  | none => []

def answers (p : PacketId) (w : World) : List Answer :=
  (incoming w).filterMap (fun sent => answer p sent.1)

/-- The broker says PUBREC only under an id that it keeps, and PUBCOMP under one that it
does not keep. -/
def answersRightly (w : World) : Action → Bool
  | .broker _ (.send (.Ack (.PubRec p)) _) => admits (signalsRead p w) .taken
  | .broker _ (.send (.Ack (.PubComp p)) _) => admits (signalsRead p w) .freed
  | _ => true

/-- One connection and one task at a time, and a broker that answers rightly. -/
def keepsToQos2 (w : World) (action : Action) : Prop :=
  keepsApart w action ∧ answersRightly w action = true

instance (w : World) (action : Action) : Decidable (keepsToQos2 w action) :=
  inferInstanceAs (Decidable (_ ∧ _))

/-- The task of the entry has its acknowledgement: it waits in its queue, or was taken and
the `RecoverId` is under way. -/
def Heard (w : World) (entry : UnacknowledgedClientData) : Prop :=
  ∃ (i : Nat) (task : Tasks.Task), w.tasks[i]? = some task ∧ task.spec = entry.toAcknowledge ∧
    ((task.prog = task.spec.run ∧ ∃ ack, confirmation task.spec = some ack ∧
        ∃ e ∈ w.bus, e.receiver = .task i ∧ e.event = .ack ack) ∨
      task.prog ≠ task.spec.run ∧ .RecoverId entry.packetId ∈ pending w i)

/-- How signals and answers under `p` stand to the requests taken in under it. -/
structure Exact (p : PacketId) (w : World) : Prop where
  idle : (∀ entry ∈ w.hub.clientData, twoPhase entry = true → entry.packetId ≠ p) →
    Idle (asked p w.log) (signalsRead p w) (signalsLeft p w) (answers p w)
  offered : ∀ trace, .PublishQoS2 trace ∈ w.hub.clientData → trace.packetId = p →
    ∃ before, asked p w.log = before ++ [original trace] ∧
      Offered before (original trace) (signalsRead p w) (signalsLeft p w) (answers p w)
  freed : ∀ id protocol, .PubRel p id protocol ∈ w.hub.clientData →
    ∃ before message, asked p w.log = before ++ [message] ∧
      Freed before message (signalsRead p w) (signalsLeft p w) (answers p w)
  taken : ∀ trace, .PublishQoS2 trace ∈ w.hub.clientData → trace.packetId = p →
    Heard w (.PublishQoS2 trace) → KnowsTaken (signalsRead p w) (answers p w)
  released : ∀ id protocol, .PubRel p id protocol ∈ w.hub.clientData →
    Heard w (.PubRel p id protocol) → KnowsFreed (signalsRead p w) (answers p w)

section Incoming

variable {w w' : World} {action : Action} {p : PacketId}

theorem incoming_eq {n : Nat} {network : Network} (hget : w.networks[n]? = some network)
    (hlast : n + 1 = w.networks.length) :
    incoming w = if network.live then network.fromBroker else [] := by
  have index : w.networks.length - 1 = n := by omega
  rw [incoming, index, hget]

theorem incoming_same (h : w'.networks = w.networks) : incoming w' = incoming w := by
  rw [incoming, incoming, h]

/-- What the live connection has changes by a read of it, or by its broker. -/
theorem incoming_set {n : Nat} {network : Network} (network' : Network)
    (hget : w.networks[n]? = some network) (hset : w'.networks = w.networks.set n network')
    (hlast : n + 1 = w.networks.length) :
    incoming w' = if network'.live then network'.fromBroker else [] := by
  refine incoming_eq (n := n) ?_ ?_
  · rw [hset, List.getElem?_set_self (List.getElem?_eq_some_iff.mp hget).1]
  · rw [hset, List.length_set]
    exact hlast

theorem incoming_other {n : Nat} {network' : Network}
    (hset : w'.networks = w.networks.set n network') (hnot : n + 1 ≠ w.networks.length)
    (hn : n < w.networks.length) : incoming w' = incoming w := by
  rw [incoming, incoming, hset, List.length_set, List.getElem?_set_ne (by omega)]

theorem incoming_of_hub {a : HubAction} (h : HubMoved w a w') : incoming w' <:+ incoming w := by
  rcases networks_of_hub h with hsame | ⟨hadded, _⟩
  · exact incoming_same hsame ▸ List.suffix_rfl
  · have none : incoming w' = [] := by
      have fresh : w'.networks[w.networks.length]? = some .init := by
        rw [hadded, List.getElem?_append_right (Nat.le_refl _), Nat.sub_self]
        rfl
      rw [incoming_eq fresh (by rw [hadded, List.length_append, List.length_singleton])]
      rfl
    rw [none]
    exact List.nil_suffix

theorem incoming_of_network (hlatest : Latest w) {n : Nat} {network : Network} {a : NetworkAction}
    (hget : w.networks[n]? = some network) (h : NetworkMoved w n network a w') :
    incoming w' <:+ incoming w := by
  have hlive := live_of_networkMoved h
  obtain ⟨_, hlast⟩ := hlatest.reached_le hget hlive
  have before : incoming w = network.fromBroker := by rw [incoming_eq hget hlast, if_pos hlive]
  have after {network' : Network} (hset : w'.networks = w.networks.set n network')
      (hless : network'.fromBroker <:+ network.fromBroker) : incoming w' <:+ incoming w := by
    rw [incoming_set _ hget hset hlast, before]
    split
    · exact hless
    · exact List.nil_suffix
  cases h with
  | @read packet message rest hstate hfrom =>
    have hless : rest <:+ network.fromBroker := hfrom ▸ List.suffix_cons _ _
    cases packet <;> exact after rfl hless
  | _ => exact after rfl List.suffix_rfl

/-- Only the broker adds an answer, and only the network task takes one. -/
theorem answers_of_moved (hlatest : Latest w) (h : Moved w action w') (p : PacketId) :
    answers p w' <:+ answers p w ∨
      ∃ n packet message one, action = .broker n (.send packet message) ∧
        answer p packet = some one ∧ answers p w' = answers p w ++ [one] := by
  have less (hincoming : incoming w' <:+ incoming w) : answers p w' <:+ answers p w :=
    hincoming.filterMap _
  have same (hnetworks : w'.networks = w.networks) : answers p w' <:+ answers p w :=
    less (incoming_same hnetworks ▸ List.suffix_rfl)
  have other {n : Nat} {network' : Network} (hset : w'.networks = w.networks.set n network')
      (hnot : n + 1 ≠ w.networks.length) (hn : n < w.networks.length) :
      answers p w' <:+ answers p w := less (incoming_other hset hnot hn ▸ List.suffix_rfl)
  cases h with
  | hub h => exact .inl (less (incoming_of_hub h))
  | task hget h => cases h <;> exact .inl (same rfl)
  | ping hget h => cases h <;> exact .inl (same rfl)
  | network hget h => exact .inl (less (incoming_of_network hlatest hget h))
  | @brokerRecv n network packet rest hget hto =>
    left
    by_cases hlast : n + 1 = w.networks.length
    · refine less ?_
      rw [incoming_set _ hget rfl hlast, incoming_eq hget hlast]
      exact List.suffix_rfl
    · exact other rfl hlast (List.getElem?_eq_some_iff.mp hget).1
  | @brokerSend n network packet message hget =>
    by_cases hlast : n + 1 = w.networks.length
    · cases hlive : network.live with
      | false =>
        left
        refine less ?_
        rw [incoming_set _ hget rfl hlast, incoming_eq hget hlast]
        have dead : ({ network with
            fromBroker := network.fromBroker ++ [(packet, message)] } : Network).live = false :=
          hlive
        rw [dead, hlive]
        exact List.suffix_rfl
      | true =>
        have added : incoming ((w.record (.brokerSent n packet message)).setNetwork n
            { network with fromBroker := network.fromBroker ++ [(packet, message)] }) =
              incoming w ++ [(packet, message)] := by
          rw [incoming_set _ hget rfl hlast, incoming_eq hget hlast, if_pos hlive]
          exact if_pos hlive
        have split := congrArg (List.filterMap (fun sent : Packet × Nat => answer p sent.1)) added
        rw [List.filterMap_append] at split
        cases hanswer : answer p packet with
        | none =>
          left
          have kept : answers p ((w.record (.brokerSent n packet message)).setNetwork n
              { network with fromBroker := network.fromBroker ++ [(packet, message)] }) =
                answers p w := by
            simpa [answers, hanswer] using split
          exact kept ▸ List.suffix_rfl
        | some one =>
          right
          exact ⟨n, packet, message, one, rfl, hanswer, by simpa [answers, hanswer] using split⟩
    · exact .inl (other rfl hlast (List.getElem?_eq_some_iff.mp hget).1)
  | _ => exact .inl (same rfl)

end Incoming

/-! ## What a task has heard -/

section Hearing

variable {w w' : World} {action : Action} {entry : UnacknowledgedClientData}

/-- A step of the hub puts no acknowledgement on the bus. -/
theorem acks_of_hub {a : HubAction} (h : HubMoved w a w') {e : Envelope} (he : e ∈ w'.bus)
    {ack : Ack} (hevent : e.event = .ack ack) : e ∈ w.bus := by
  rcases mem_bus_of_moved (.hub h) he with hold | hnew
  · exact hold
  · cases hnew <;> cases hevent

theorem present_of_ack (hrouted : Routed w) {a : HubAction} (h : HubMoved w a w') {e : Envelope}
    (he : e ∈ w'.bus) {i : Nat} {ack : Ack} (hreceiver : e.receiver = .task i)
    (hevent : e.event = .ack ack) : i < w.tasks.length := by
  obtain ⟨_, hget, _⟩ := hrouted.receiver e (acks_of_hub h he hevent) i ack hreceiver hevent
  exact (List.getElem?_eq_some_iff.mp hget).1

theorem task_of_hub {a : HubAction} (h : HubMoved w a w') {i : Nat} (hi : i < w.tasks.length) :
    w'.tasks[i]? = w.tasks[i]? := by
  obtain ⟨specs, htasks⟩ := tasks_of_hub h
  rw [htasks, List.getElem?_append_left hi]

/-- A task that was just started has heard nothing. -/
theorem heard_of_hub (hrouted : Routed w) {a : HubAction} (h : HubMoved w a w')
    (hheard : Heard w' entry) : Heard w entry := by
  obtain ⟨i, task, hget', hspec, hhow⟩ := hheard
  rcases hhow with ⟨hwhole, ack, hack, e, he, hreceiver, hevent⟩ | ⟨hpast, hpending⟩
  · have hi := present_of_ack hrouted h he hreceiver hevent
    refine ⟨i, task, (task_of_hub h hi).symm.trans hget', hspec, ?_⟩
    exact .inl ⟨hwhole, ack, hack, e, acks_of_hub h he hevent, hreceiver, hevent⟩
  · rcases task_before (.hub h) hget' with ⟨_, hbefore, _⟩ | ⟨hnew, spec, rfl⟩
    · have hi := (List.getElem?_eq_some_iff.mp hbefore).1
      refine ⟨i, task, (task_of_hub h hi).symm.trans hget', hspec, ?_⟩
      exact .inr ⟨hpast, (pending_inside h hi).subset hpending⟩
    · exact absurd rfl hpast

/-- Nobody has heard anything for an entry that was just made. -/
theorem unheard_of_new (hrouted : Routed w) {a : HubAction} (h : HubMoved w a w')
    (hlaw : HandedOn.Law w) (hlaw' : HandedOn.Law w') (htwo : twoPhase entry = true)
    (htasks : w'.tasks = w.tasks ++ [Task.init entry.toAcknowledge])
    (hnew : entry ∉ w.hub.clientData) (hentry : entry ∈ w'.hub.clientData) : ¬ Heard w' entry := by
  rintro ⟨i, task, hget', hspec, hhow⟩
  rcases hhow with ⟨hwhole, ack, _, e, he, hreceiver, hevent⟩ | ⟨hpast, hpending⟩
  · have hi := present_of_ack hrouted h he hreceiver hevent
    exact hnew (hlaw.busy i task entry ((task_of_hub h hi).symm.trans hget') hwhole htwo hspec)
  · -- the new task is the only one that can send the `RecoverId`, and is yet to start
    have own : w'.tasks[w.tasks.length]? = some (.init entry.toAcknowledge) := by
      rw [htasks, List.getElem?_append_right (Nat.le_refl _), Nat.sub_self]
      rfl
    obtain ⟨k, halone, _⟩ := hlaw'.alone entry hentry htwo
    have hfresh : w.tasks.length = k := by
      apply halone.only
      rw [pending_eq own]
      exact List.mem_append_right _ (recoverId_mem_run entry)
    have hi : i = k := halone.only i hpending
    rw [hi, ← hfresh, own] at hget'
    cases hget'
    exact hpast rfl

/-- What confirms the entry is what its task waits for. -/
theorem confirmation_of_confirms {ack : Ack} (htwo : twoPhase entry = true)
    (h : Confirms entry ack) : confirmation entry.toAcknowledge = some ack := by
  obtain ⟨htype, hid⟩ := h
  cases entry with
  | PublishQoS2 trace =>
    cases ack with
    | PubRec packetId => exact congrArg (fun p => some (Ack.PubRec p)) hid.symm
    | _ => cases htype
  | PubRel p id protocol =>
    cases ack with
    | PubComp packetId => exact congrArg (fun p => some (Ack.PubComp p)) hid.symm
    | _ => cases htype
  | _ => cases htwo

/-- A task that transmits for the entry, and then has its `RecoverId` to send, took the
acknowledgement from its queue. -/
theorem heard_of_own (hrouted : Routed w) (hlaw : HandedOn.Law w) {i : Nat}
    {task task' : Tasks.Task} {a : TaskAction} (hget : w.tasks[i]? = some task)
    (hwhole : task.prog = task.spec.run) (hspec : task.spec = entry.toAcknowledge)
    (htwo : twoPhase entry = true) (h : TaskMoved w i task a w')
    (hget' : w'.tasks[i]? = some task') (hpast : task'.prog ≠ task'.spec.run)
    (hpending : .RecoverId entry.packetId ∈ pending w' i) : Heard w entry := by
  obtain ⟨data, dupData, rest, type, hrun, _⟩ := run_toAcknowledge entry
  have head : task.prog = .transmit data dupData entry.packetId :: rest := by
    rw [hwhole, hspec, hrun]
  have here := (List.getElem?_eq_some_iff.mp hget).1
  have same {next : Tasks.Task} (htasks : w'.tasks = w.tasks.set i next)
      (hkept : next.prog = task.prog ∧ next.spec = task.spec) : False := by
    rw [htasks, List.getElem?_set_self here] at hget'
    cases hget'
    exact hpast (by rw [hkept.1, hkept.2, hwhole])
  cases h with
  | sendFirst hphase hprog => exact (same rfl ⟨rfl, rfl⟩).elim
  | transmitted hphase hprog hdone => exact (same rfl ⟨rfl, rfl⟩).elim
  | sendAgain hphase hprog => exact (same rfl ⟨rfl, rfl⟩).elim
  | skipped hphase hprog htake hrel =>
    cases hget.symm.trans hget'
    exact absurd hwhole hpast
  | sendOnly hphase hprog => cases head.symm.trans hprog
  | sent hphase hprog hdone => cases head.symm.trans hprog
  | dispatch hphase hprog => cases head.symm.trans hprog
  | txToUser hphase hprog => cases head.symm.trans hprog
  | died hphase hlost =>
    have none : pending (w.setTask i { task with prog := [], phase := .ready }) i = [] := by
      have now : (w.setTask i { task with prog := [], phase := .ready }).tasks[i]? =
          some { task with prog := [], phase := .ready } := List.getElem?_set_self here
      rw [pending_eq now, World.setTask_bus, hlaw.unqueued hget hwhole]
      rfl
    rw [none] at hpending
    cases hpending
  | @acked j sender ack message queue _ _ packetId _ hphase hprog htake hrel =>
    have hmem := PairFifo.mem_of_take htake
    obtain ⟨_, hget'', hrx⟩ := hrouted.receiver _ hmem i ack rfl rfl
    cases hget.symm.trans hget''
    cases head.symm.trans hprog
    have hconfirms : Confirms entry ack := ⟨hspec ▸ hrx, of_decide_eq_true hrel⟩
    refine ⟨i, task, hget, hspec, .inl ⟨hwhole, ack, ?_, _, hmem, rfl, rfl⟩⟩
    rw [hspec]
    exact confirmation_of_confirms htwo hconfirms

/-- Only what the network task reads of the live connection is news to a task. -/
theorem heard_of_outside (hrouted : Routed w) (htrack : OnTrack w) (hlatest : Latest w)
    (hlaw : HandedOn.Law w) (h : Moved w action w') (hhub : ∀ a, action ≠ .hub a)
    (htwo : twoPhase entry = true) (hheard : Heard w' entry) :
    Heard w entry ∨ ∃ ack message, confirmation entry.toAcknowledge = some ack ∧
      incoming w = (.Ack ack, message) :: incoming w' ∧ w'.log = w.log := by
  obtain ⟨i, task', hget', hspec', hhow⟩ := hheard
  have before : ∃ task, w.tasks[i]? = some task ∧ task'.spec = task.spec ∧
      task'.prog <:+ task.prog := by
    rcases task_before h hget' with ⟨task, hget, hspec, hsuffix⟩ | ⟨hnew, _⟩
    · exact ⟨task, hget, hspec, hsuffix⟩
    · have := (List.getElem?_eq_some_iff.mp hget').1
      have := tasks_length_of_outside h hhub
      omega
  obtain ⟨task, hget, hsame, hsuffix⟩ := before
  have hspec : task.spec = entry.toAcknowledge := hsame ▸ hspec'
  rcases hhow with ⟨hwhole', ack, hack, e, he, hreceiver, hevent⟩ | ⟨hpast, hpending⟩
  · have hwhole : task.prog = task.spec.run := by
      have short := (htrack i task hget).length_le
      have long := hsuffix.length_le
      rw [hwhole', hsame] at long
      exact (htrack i task hget).eq_of_length (Nat.le_antisymm short long)
    rcases mem_bus_of_moved h he with hold | hnew
    · left
      exact ⟨i, task, hget, hspec, .inl ⟨hwhole, ack, hsame ▸ hack, e, hold, hreceiver, hevent⟩⟩
    · right
      cases hnew with
      | @ack n k network got message rest hnetwork hfrom hlive =>
        cases hevent
        cases h with
        | network hnetwork' hmoved =>
          cases hnetwork.symm.trans hnetwork'
          have hlive := live_of_networkMoved hmoved
          obtain ⟨_, hlast⟩ := hlatest.reached_le hnetwork hlive
          cases hmoved with
          | read hstate hfrom' =>
            cases hfrom.symm.trans hfrom'
            refine ⟨ack, message, hspec' ▸ hack, ?_, rfl⟩
            rw [incoming_eq hnetwork hlast, if_pos hlive, hfrom,
              incoming_set { network with fromBroker := rest } hnetwork rfl hlast]
            exact congrArg _ (if_pos hlive).symm
      | _ => cases hevent
  · left
    by_cases hwhole : task.prog = task.spec.run
    · by_cases hown : ∃ a, action = .task i a
      · obtain ⟨a, rfl⟩ := hown
        cases h with
        | task hget'' hmoved =>
          cases hget.symm.trans hget''
          exact heard_of_own hrouted hlaw hget hwhole hspec htwo hmoved hget' hpast hpending
      · have kept := task_of_other h hhub (fun a ha => hown ⟨a, ha⟩)
        cases (kept.symm.trans hget').symm.trans hget
        exact absurd hwhole hpast
    · exact ⟨i, task, hget, hspec, .inr ⟨hwhole, (pending_outside h hhub i).subset hpending⟩⟩

end Hearing

/-! ## How signals and answers move -/

/-- Of the signals and answers under `p` at most one comes to its end, and others are lost; or
a signal of an entry, or a right answer, is added. -/
inductive Passes (p : PacketId) (w w' : World) : Prop where
  | less (hread : signalsRead p w' = signalsRead p w)
      (hwire : (signalsLeft p w').Sublist (signalsLeft p w))
      (hanswers : answers p w' <:+ answers p w)
  | reads (s : Signal Publish) (hread : signalsRead p w' = signalsRead p w ++ [s])
      (hfront : (s :: signalsLeft p w').Sublist (signalsLeft p w))
      (hanswers : answers p w' <:+ answers p w)
  | writes (s : Signal Publish)
      (hentry : (∃ trace, .PublishQoS2 trace ∈ w.hub.clientData ∧ trace.packetId = p ∧
          s = .publish (original trace)) ∨
        ∃ id protocol, .PubRel p id protocol ∈ w.hub.clientData ∧ s = .release)
      (hread : signalsRead p w' = signalsRead p w)
      (hwire : signalsLeft p w' = signalsLeft p w ++ [s])
      (hanswers : answers p w' <:+ answers p w)
  | answered (one : Answer) (hread : signalsRead p w' = signalsRead p w)
      (hwire : signalsLeft p w' = signalsLeft p w)
      (hanswers : answers p w' = answers p w ++ [one])
      (hadmits : admits (signalsRead p w) one = true)

section Passing

variable {w w' : World} {action : Action} {p : PacketId}

theorem passes_of_flows (hI : Standing w) (h : Flows w w')
    (hanswers : answers p w' <:+ answers p w) : Passes p w w' := by
  cases carried_of_flows h p with
  | less hread hleft => exact .less hread hleft hanswers
  | read s hread hfront => exact .reads s hread hfront hanswers
  | write packet s hsignal hcoming hread hleft =>
    obtain ⟨e, he, n, receipt, hreceiver, hlive, hevent⟩ := hcoming
    have hentry := entry_of_coming hI.awaited hI.apart.track hI.apart.law he hreceiver hlive
      hevent hsignal
    exact .writes s hentry hread hleft hanswers

theorem admits_of_answer (hok : answersRightly w action = true) {n : Nat} {packet : Packet}
    {message : Nat} {one : Answer} (haction : action = .broker n (.send packet message))
    (hanswer : answer p packet = some one) : admits (signalsRead p w) one = true := by
  subst haction
  cases packet with
  | Ack ack =>
    cases ack with
    | PubRec packetId =>
      obtain ⟨rfl, rfl⟩ : packetId = p ∧ Answer.taken = one := by simpa [answer] using hanswer
      exact hok
    | PubComp packetId =>
      obtain ⟨rfl, rfl⟩ : packetId = p ∧ Answer.freed = one := by simpa [answer] using hanswer
      exact hok
    | _ => cases hanswer
  | _ => cases hanswer

theorem passes_of_moved (hok : keepsToQos2 w action) (hI : Standing w)
    (h : Moved w action w') (p : PacketId) : Passes p w w' := by
  rcases answers_of_moved hI.latest h p with hless |
    ⟨n, packet, message, one, rfl, hanswer, hadded⟩
  · exact passes_of_flows hI (flows_of_moved hok.1.2.2.2 hI.latest h) hless
  · obtain ⟨hreceived, hreadable⟩ := flow_of_brokerSend h
    refine .answered one ?_ ?_ hadded (admits_of_answer hok.2 rfl hanswer)
    · exact signalsRead_same hreceived
    · exact signalsLeft_same hreadable

theorem idle_of_passes {asked : List Publish} (h : Passes p w w')
    (hnone : ∀ entry ∈ w.hub.clientData, twoPhase entry = true → entry.packetId ≠ p)
    (hI : Idle asked (signalsRead p w) (signalsLeft p w) (answers p w)) :
    Idle asked (signalsRead p w') (signalsLeft p w') (answers p w') := by
  cases h with
  | less hread hwire hanswers => exact hread ▸ hI.less hwire hanswers
  | reads s hread hfront hanswers =>
    exact hread ▸ (hI.reads hfront).less (List.Sublist.refl _) hanswers
  | writes s hentry =>
    rcases hentry with ⟨trace, hmem, hid, _⟩ | ⟨id, protocol, hmem, _⟩
    · exact absurd hid (hnone _ hmem rfl)
    · exact absurd rfl (hnone _ hmem rfl)
  | answered one hread hwire hanswers hadmits =>
    rw [hread, hwire, hanswers]
    exact hI.answered hadmits

theorem offered_of_passes (hids : IdsConserved w.hub) (h : Passes p w w')
    {trace : TracePublishQos .ExactlyOnce} (hmem : .PublishQoS2 trace ∈ w.hub.clientData)
    (hid : trace.packetId = p) {before : List Publish}
    (hI : Offered before (original trace) (signalsRead p w) (signalsLeft p w) (answers p w)) :
    Offered before (original trace) (signalsRead p w') (signalsLeft p w') (answers p w') := by
  cases h with
  | less hread hwire hanswers => exact hread ▸ hI.less hwire hanswers
  | reads s hread hfront hanswers =>
    exact hread ▸ (hI.reads hfront).less (List.Sublist.refl _) hanswers
  | writes s hentry hread hwire hanswers =>
    have own : s = .publish (original trace) := by
      rcases hentry with ⟨other, hother, hsame, hs⟩ | ⟨id, protocol, hother, _⟩
      · cases entry_unique hids hmem hother (hid.trans hsame.symm)
        exact hs
      · cases entry_unique hids hmem hother hid
    rw [hread, hwire, own]
    exact hI.writes.less (List.Sublist.refl _) hanswers
  | answered one hread hwire hanswers hadmits =>
    rw [hread, hwire, hanswers]
    exact hI.answered hadmits

theorem freed_of_passes (hids : IdsConserved w.hub) (h : Passes p w w') {id : Nat}
    {protocol : Protocol} (hmem : .PubRel p id protocol ∈ w.hub.clientData)
    {before : List Publish} {message : Publish}
    (hI : Freed before message (signalsRead p w) (signalsLeft p w) (answers p w)) :
    Freed before message (signalsRead p w') (signalsLeft p w') (answers p w') := by
  cases h with
  | less hread hwire hanswers => exact hread ▸ hI.less hwire hanswers
  | reads s hread hfront hanswers =>
    exact hread ▸ (hI.reads hfront).less (List.Sublist.refl _) hanswers
  | writes s hentry hread hwire hanswers =>
    have own : s = .release := by
      rcases hentry with ⟨other, hother, hsame, _⟩ | ⟨_, _, _, hs⟩
      · cases entry_unique hids hmem hother hsame.symm
      · exact hs
    rw [hread, hwire, own]
    exact hI.writes.less (List.Sublist.refl _) hanswers
  | answered one hread hwire hanswers hadmits =>
    rw [hread, hwire, hanswers]
    exact hI.answered hadmits

theorem knowsTaken_of_passes (h : Passes p w w') {before : List Publish} {message : Publish}
    (hI : Offered before message (signalsRead p w) (signalsLeft p w) (answers p w))
    (hknows : KnowsTaken (signalsRead p w) (answers p w)) :
    KnowsTaken (signalsRead p w') (answers p w') := by
  cases h with
  | less hread hwire hanswers => exact hread ▸ hknows.less hanswers
  | reads s hread hfront hanswers => exact hread ▸ (hknows.reads hI hfront).less hanswers
  | writes s hentry hread hwire hanswers => exact hread ▸ hknows.less hanswers
  | answered one hread hwire hanswers hadmits =>
    rw [hread, hanswers]
    exact hknows.answered hadmits

theorem knowsFreed_of_passes (h : Passes p w w') {before : List Publish} {message : Publish}
    (hI : Freed before message (signalsRead p w) (signalsLeft p w) (answers p w))
    (hknows : KnowsFreed (signalsRead p w) (answers p w)) :
    KnowsFreed (signalsRead p w') (answers p w') := by
  cases h with
  | less hread hwire hanswers => exact hread ▸ hknows.less hanswers
  | reads s hread hfront hanswers => exact hread ▸ (hknows.reads hI hfront).less hanswers
  | writes s hentry hread hwire hanswers => exact hread ▸ hknows.less hanswers
  | answered one hread hwire hanswers hadmits =>
    rw [hread, hanswers]
    exact hknows.answered hadmits

end Passing

/-! ## Exactly once -/

section Exactness

variable {w w' : World} {action : Action} {p : PacketId}

theorem answers_of_read {packet : Packet} {message : Nat} {one : Answer}
    (hread : incoming w = (packet, message) :: incoming w') (hone : answer p packet = some one) :
    answers p w = one :: answers p w' := by
  rw [answers, hread, List.filterMap_cons, hone, ← answers]

theorem exact_of_outside (hok : keepsToQos2 w action) (hI : Standing w) (h : Moved w action w')
    (hhub : ∀ a, action ≠ .hub a) (hE : Exact p w) : Exact p w' := by
  obtain ⟨hdata, hasked⟩ := entries_of_outside (p := p) h hhub
  have hpasses := passes_of_moved hok hI h p
  have hids := hI.apart.ids
  have hears {entry : UnacknowledgedClientData} (htwo : twoPhase entry = true)
      (hheard : Heard w' entry) := heard_of_outside hI.apart.routed hI.apart.track hI.latest
    hI.apart.law h hhub htwo hheard
  constructor
  · rw [hdata, hasked]
    exact fun hnone => idle_of_passes hpasses hnone (hE.idle hnone)
  · rw [hdata, hasked]
    intro trace hmem hid
    obtain ⟨before, hbefore, hoffered⟩ := hE.offered trace hmem hid
    exact ⟨before, hbefore, offered_of_passes hids hpasses hmem hid hoffered⟩
  · rw [hdata, hasked]
    intro id protocol hmem
    obtain ⟨before, message, hbefore, hfreed⟩ := hE.freed id protocol hmem
    exact ⟨before, message, hbefore, freed_of_passes hids hpasses hmem hfreed⟩
  · rw [hdata]
    intro trace hmem hid hheard
    obtain ⟨before, _, hoffered⟩ := hE.offered trace hmem hid
    rcases hears rfl hheard with hold | ⟨ack, message, hack, hread, hsame⟩
    · exact knowsTaken_of_passes hpasses hoffered (hE.taken trace hmem hid hold)
    · cases hack
      have came : answers p w = .taken :: answers p w' := answers_of_read hread (if_pos hid)
      rw [came] at hoffered
      rw [signalsRead, hsame, ← signalsRead]
      exact hoffered.learns
  · rw [hdata]
    intro id protocol hmem hheard
    obtain ⟨before, message, _, hfreed⟩ := hE.freed id protocol hmem
    rcases hears rfl hheard with hold | ⟨ack, message, hack, hread, hsame⟩
    · exact knowsFreed_of_passes hpasses hfreed (hE.released id protocol hmem hold)
    · cases hack
      have came : answers p w = .freed :: answers p w' := answers_of_read hread (if_pos rfl)
      rw [came] at hfreed
      rw [signalsRead, hsame, ← signalsRead]
      exact hfreed.learns

/-- The task whose `RecoverId` the hub takes has its acknowledgement. -/
theorem heard_of_take (hfrom : FromTasks w) (hlaw : HandedOn.Law w)
    {entry : UnacknowledgedClientData} (hmem : entry ∈ w.hub.clientData)
    (htwo : twoPhase entry = true) (hid : entry.packetId = p)
    (htook : ∃ j sender message rest, PairFifo.take Envelope.channel w.bus j =
      some (⟨sender, .hub, .hubMsg (.RecoverId p), message⟩, rest)) : Heard w entry := by
  subst hid
  obtain ⟨j, sender, message, rest, htake⟩ := htook
  obtain ⟨m, hsender⟩ := hfrom _ (PairFifo.mem_of_take htake) entry.packetId rfl
  cases hsender
  obtain ⟨i, halone, task, hget, hspec⟩ := hlaw.alone entry hmem htwo
  have hpending : .RecoverId entry.packetId ∈ pending w m :=
    List.mem_append_left _ (pending_of_take htake)
  obtain rfl : m = i := halone.only m hpending
  have hpast := transmits_no_more hfrom hlaw hmem htwo htake hget hspec
  exact ⟨m, task, hget, hspec, .inr ⟨hpast, hpending⟩⟩

section Unsent

variable (hread : signalsRead p w' = signalsRead p w)
  (hwire : (signalsLeft p w').Sublist (signalsLeft p w)) (hanswers : answers p w' <:+ answers p w)

include hread hwire hanswers

theorem Exact.keep (hE : Exact p w) (hasked : asked p w'.log = asked p w.log)
    (hentries : ∀ entry, twoPhase entry = true → entry.packetId = p →
      (entry ∈ w'.hub.clientData ↔ entry ∈ w.hub.clientData))
    (hheard : ∀ entry, Heard w' entry → Heard w entry) : Exact p w' := by
  have publish {trace : TracePublishQos .ExactlyOnce} (hid : trace.packetId = p)
      (hmem : .PublishQoS2 trace ∈ w'.hub.clientData) : .PublishQoS2 trace ∈ w.hub.clientData :=
    (hentries (.PublishQoS2 trace) rfl hid).mp hmem
  have release {id : Nat} {protocol : Protocol} (hmem : .PubRel p id protocol ∈ w'.hub.clientData) :
      .PubRel p id protocol ∈ w.hub.clientData :=
    (hentries (.PubRel p id protocol) rfl rfl).mp hmem
  refine ⟨?_, ?_, ?_, ?_, ?_⟩
  · rw [hasked, hread]
    intro hnone
    refine (hE.idle fun entry hmem htwo hid => ?_).less hwire hanswers
    exact hnone entry ((hentries entry htwo hid).mpr hmem) htwo hid
  · rw [hasked, hread]
    intro trace hmem hid
    obtain ⟨before, hbefore, hoffered⟩ := hE.offered trace (publish hid hmem) hid
    exact ⟨before, hbefore, hoffered.less hwire hanswers⟩
  · rw [hasked, hread]
    intro id protocol hmem
    obtain ⟨before, message, hbefore, hfreed⟩ := hE.freed id protocol (release hmem)
    exact ⟨before, message, hbefore, hfreed.less hwire hanswers⟩
  · rw [hread]
    intro trace hmem hid hheard'
    exact (hE.taken trace (publish hid hmem) hid (hheard _ hheard')).less hanswers
  · rw [hread]
    intro id protocol hmem hheard'
    exact (hE.released id protocol (release hmem) (hheard _ hheard')).less hanswers

/-- A request under an unused id is on offer, and nobody has heard anything for it. -/
theorem Exact.accept (hE : Exact p w) (hids' : IdsConserved w'.hub)
    {trace : TracePublishQos .ExactlyOnce} (hid : trace.packetId = p)
    (hunused : ∀ entry ∈ w.hub.clientData, entry.packetId ≠ p)
    (hmem : .PublishQoS2 trace ∈ w'.hub.clientData)
    (hasked : asked p w'.log = asked p w.log ++ [original trace])
    (hunheard : ¬ Heard w' (.PublishQoS2 trace)) : Exact p w' := by
  have only {entry : UnacknowledgedClientData} (hentry : entry ∈ w'.hub.clientData)
      (hsame : entry.packetId = p) : entry = .PublishQoS2 trace :=
    entry_unique hids' hentry hmem (hsame.trans hid.symm)
  have hidle := (hE.idle fun entry hentry _ => hunused entry hentry).less hwire hanswers
  refine ⟨fun hnone => absurd hid (hnone _ hmem rfl), ?_, ?_, ?_, ?_⟩
  · rw [hasked, hread]
    intro other hother hsame
    cases only hother hsame
    exact ⟨_, rfl, hidle.offer (original trace)⟩
  · intro id protocol hother
    cases only hother rfl
  · intro other hother hsame hheard
    cases only hother hsame
    exact absurd hheard hunheard
  · intro id protocol hother
    cases only hother rfl

/-- The PUBREC was heard: the broker has the message, and its id may be released. -/
theorem Exact.release (hE : Exact p w) (hids' : IdsConserved w'.hub)
    {trace : TracePublishQos .ExactlyOnce} (hid : trace.packetId = p)
    (hbefore : .PublishQoS2 trace ∈ w.hub.clientData)
    (hafter : .PubRel p trace.id trace.protocol ∈ w'.hub.clientData)
    (hasked : asked p w'.log = asked p w.log) (hheard : Heard w (.PublishQoS2 trace))
    (hunheard : ¬ Heard w' (.PubRel p trace.id trace.protocol)) : Exact p w' := by
  have only {entry : UnacknowledgedClientData} (hentry : entry ∈ w'.hub.clientData)
      (hsame : entry.packetId = p) : entry = .PubRel p trace.id trace.protocol :=
    entry_unique hids' hentry hafter hsame
  obtain ⟨before, hlast, hoffered⟩ := hE.offered trace hbefore hid
  have hknows := hE.taken trace hbefore hid hheard
  refine ⟨fun hnone => absurd rfl (hnone _ hafter rfl), ?_, ?_, ?_, ?_⟩
  · intro other hother hsame
    cases only hother hsame
  · rw [hasked, hread]
    intro id protocol hother
    exact ⟨before, original trace, hlast, (hoffered.release hknows).less hwire hanswers⟩
  · intro other hother hsame
    cases only hother hsame
  · intro id protocol hother hheard'
    cases only hother rfl
    exact absurd hheard' hunheard

/-- The PUBCOMP was heard: the id is free. -/
theorem Exact.close (hE : Exact p w) {id : Nat} {protocol : Protocol}
    (hbefore : .PubRel p id protocol ∈ w.hub.clientData)
    (hnone : ∀ entry ∈ w'.hub.clientData, entry.packetId ≠ p)
    (hasked : asked p w'.log = asked p w.log) (hheard : Heard w (.PubRel p id protocol)) :
    Exact p w' := by
  obtain ⟨before, message, hlast, hfreed⟩ := hE.freed id protocol hbefore
  have hknows := hE.released id protocol hbefore hheard
  refine ⟨?_, ?_, ?_, ?_, ?_⟩
  · rw [hasked, hread, hlast]
    exact fun _ => (hfreed.rest hknows).less hwire hanswers
  · exact fun other hother hsame => absurd hsame (hnone _ hother)
  · exact fun _ _ hother => absurd rfl (hnone _ hother)
  · exact fun other hother hsame => absurd hsame (hnone _ hother)
  · exact fun _ _ hother => absurd rfl (hnone _ hother)

end Unsent

theorem exact_of_hub (hI : Apart w) (hI' : Apart w') {a : HubAction} (h : HubMoved w a w')
    (hE : Exact p w) : Exact p w' := by
  obtain ⟨hreceived, hreadable⟩ := flow_of_hub h
  have hread : signalsRead p w' = signalsRead p w := signalsRead_same hreceived
  have hwire : (signalsLeft p w').Sublist (signalsLeft p w) :=
    signalsLeft_same hreadable ▸ List.Sublist.refl _
  have hanswers : answers p w' <:+ answers p w := (incoming_of_hub h).filterMap _
  cases phases_of_hub hI.ids h p with
  | kept hasked hentries =>
    exact hE.keep hread hwire hanswers hasked hentries fun _ => heard_of_hub hI.routed h
  | accepted trace hid hunused hdata htasks hasked =>
    have hmem : .PublishQoS2 trace ∈ w'.hub.clientData :=
      hdata ▸ List.mem_append_right _ (List.mem_singleton_self _)
    refine hE.accept hread hwire hanswers hI'.ids hid hunused hmem hasked ?_
    refine unheard_of_new hI.routed h hI.law hI'.law rfl htasks ?_ hmem
    exact fun hbefore => hunused _ hbefore hid
  | released trace hid hbefore hafter htasks htook hasked =>
    have hheard := heard_of_take hI.fromTasks hI.law hbefore rfl hid htook
    refine hE.release hread hwire hanswers hI'.ids hid hbefore hafter hasked hheard ?_
    refine unheard_of_new hI.routed h hI.law hI'.law rfl htasks ?_ hafter
    intro hold
    cases entry_unique hI.ids hold hbefore hid.symm
  | closed id protocol hbefore hnone htook hasked =>
    have hheard := heard_of_take hI.fromTasks hI.law hbefore rfl rfl htook
    exact hE.close hread hwire hanswers hbefore hnone hasked hheard

theorem exact_init (options : MqttOptions) (protocol : Protocol) (p : PacketId) :
    Exact p (.init options protocol) where
  idle := fun _ => ⟨rfl, rfl, fun _ hmem => absurd hmem List.not_mem_nil, List.not_mem_nil⟩
  offered := fun _ hmem => absurd hmem List.not_mem_nil
  freed := fun _ _ hmem => absurd hmem List.not_mem_nil
  taken := fun _ hmem => absurd hmem List.not_mem_nil
  released := fun _ _ hmem => absurd hmem List.not_mem_nil

theorem exact_of_step (hok : keepsToQos2 w action) (hI : Standing w) (hI' : Apart w')
    (h : Moved w action w') (hE : Exact p w) : Exact p w' := by
  rcases hub_or_not h with ⟨a, rfl, hmoved⟩ | notHub
  · exact exact_of_hub hI.apart hI' hmoved hE
  · exact exact_of_outside hok hI h notHub hE

theorem standing_of_qos2 {options : MqttOptions} {protocol : Protocol}
    (h : Reachable World.step keepsToQos2 (.init options protocol) w) : Standing w :=
  reachable_standing (h.mono fun _ _ hok => hok.1)

theorem reachable_exact {options : MqttOptions} {protocol : Protocol}
    (h : Reachable World.step keepsToQos2 (.init options protocol) w) (p : PacketId) :
    Exact p w := by
  refine h.invariant (exact_init options protocol p) ?_
  intro s action s' hreach ih hok hstep
  have hI' := standing_of_qos2 (hreach.next hok hstep)
  exact exact_of_step hok (standing_of_qos2 hreach) hI'.apart (moved_of_step hstep) ih

end Exactness

/-! ## What the user is told -/

/-- The broker has handed on the message of a QoS 2 request with that trace id. -/
def HandedFor (w : World) (p : PacketId) (id : TraceId) : Prop :=
  ∃ trace : TracePublishQos .ExactlyOnce, .accepted (.PublishQoS2 trace) ∈ w.log ∧
    trace.packetId = p ∧ trace.id = id ∧ original trace ∈ handsOn false (signalsRead p w)

/-- What a success that the user is told stands for. -/
def Succeeded (w : World) (t : TraceId) : Prop :=
  (∃ trace : TracePublishQos .AtMostOnce, .requested (.PublishQoS0 trace) ∈ w.log ∧
    trace.id = t) ∨
  (∃ trace : TracePublishQos .AtLeastOnce, .accepted (.PublishQoS1 trace) ∈ w.log ∧
    trace.id = t) ∨
  ∃ p, HandedFor w p t

/-- Tasks that send a PUBREL work for a message that was handed on. -/
structure Attested (w : World) : Prop where
  tasks : ∀ (i : Nat) (task : Tasks.Task) (p : PacketId) (id : TraceId) (protocol : Protocol),
    w.tasks[i]? = some task → task.spec = .PublishQos2Rel p id protocol → HandedFor w p id
  told : ∀ t, .user (.PublishSuccess t) ∈ w.log → Succeeded w t

section Telling

variable {w w' : World} {action : Action} {p : PacketId} {id : TraceId} {t : TraceId}

theorem signalsRead_of_suffix (h : w.log <:+ w'.log) : signalsRead p w <+: signalsRead p w' := by
  obtain ⟨events, hlog⟩ := h
  have grown : received w'.log =
      received w.log ++ (events.reverse.filterMap reading).map Prod.snd := by
    rw [← hlog, received, List.reverse_append, List.filterMap_append, List.map_append, ← received]
  rw [signalsRead, signalsRead, grown, List.filterMap_append]
  exact List.prefix_append _ _

/-- What is handed on is not taken back. -/
theorem HandedFor.mono (h : HandedFor w p id) (hlog : w.log <:+ w'.log) : HandedFor w' p id := by
  obtain ⟨trace, haccepted, hp, hid, hhanded⟩ := h
  refine ⟨trace, hlog.subset haccepted, hp, hid, ?_⟩
  obtain ⟨more, hmore⟩ := signalsRead_of_suffix (p := p) hlog
  rw [← hmore, handsOn_append]
  exact List.mem_append_left _ hhanded

theorem Succeeded.mono (h : Succeeded w t) (hlog : w.log <:+ w'.log) : Succeeded w' t := by
  rcases h with ⟨trace, hmem, hid⟩ | ⟨trace, hmem, hid⟩ | ⟨p, hhanded⟩
  · exact .inl ⟨trace, hlog.subset hmem, hid⟩
  · exact .inr (.inl ⟨trace, hlog.subset hmem, hid⟩)
  · exact .inr (.inr ⟨p, hhanded.mono hlog⟩)

/-- The hub makes a PUBREL entry of a publish that the broker has. -/
theorem handed_of_released (hI : Apart w) (hsources : Provenance.Sources w) (hE : Exact p w)
    {trace : TracePublishQos .ExactlyOnce} (hmem : .PublishQoS2 trace ∈ w.hub.clientData)
    (hid : trace.packetId = p)
    (htook : ∃ j sender message rest, PairFifo.take Envelope.channel w.bus j =
      some (⟨sender, .hub, .hubMsg (.RecoverId p), message⟩, rest)) : HandedFor w p trace.id := by
  obtain ⟨before, _, hoffered⟩ := hE.offered trace hmem hid
  have hknows := hE.taken trace hmem hid (heard_of_take hI.fromTasks hI.law hmem rfl hid htook)
  have haccepted : .accepted (.PublishQoS2 trace) ∈ w.log := by
    cases hsources.entries _ hmem 0 with
    | publishQos2 h => exact h
  refine ⟨trace, haccepted, hid, rfl, ?_⟩
  rw [(hoffered.release hknows).handed]
  exact List.mem_append_right _ (List.mem_singleton_self _)

/-- A PUBREL entry was there before, with a task, or is made of a publish now. -/
theorem handed_of_entry (hI : Apart w) (hI' : Apart w') (hsources : Provenance.Sources w)
    (hE : Exact p w) {a : HubAction} (h : HubMoved w a w') (hA : Attested w)
    {protocol : Protocol} (hmem : .PubRel p id protocol ∈ w'.hub.clientData) :
    HandedFor w p id := by
  have old (hold : .PubRel p id protocol ∈ w.hub.clientData) : HandedFor w p id := by
    obtain ⟨i, _, task, hget, hspec⟩ := hI.law.alone _ hold rfl
    exact hA.tasks i task p id protocol hget hspec
  cases phases_of_hub hI.ids h p with
  | kept _ hentries => exact old ((hentries (.PubRel p id protocol) rfl rfl).mp hmem)
  | accepted trace _ _ hdata =>
    rw [hdata] at hmem
    rcases List.mem_append.mp hmem with hold | hnew
    · exact old hold
    · cases List.mem_singleton.mp hnew
  | released trace hid hbefore hafter _ htook _ =>
    cases entry_unique hI'.ids hmem hafter rfl
    exact handed_of_released hI hsources hE hbefore hid htook
  | closed _ _ _ hnone _ _ => exact absurd rfl (hnone _ hmem)

theorem attested_tasks (hI : Apart w) (hI' : Apart w') (hsources : Provenance.Sources w)
    (hE : ∀ p, Exact p w) (h : Moved w action w') (hA : Attested w) {i : Nat}
    {task' : Tasks.Task} {protocol : Protocol} (hget' : w'.tasks[i]? = some task')
    (hspec' : task'.spec = .PublishQos2Rel p id protocol) : HandedFor w' p id := by
  refine HandedFor.mono ?_ (log_grows h)
  rcases task_before h hget' with ⟨task, hget, hsame, _⟩ | ⟨hnew, spec, rfl⟩
  · exact hA.tasks i task p id protocol hget (hsame.symm.trans hspec')
  · rcases hub_or_not h with ⟨a, rfl, hmoved⟩ | notHub
    · have moved := hmoved
      cases hmoved with
      | @intro input message taken hub outputs htakes hmove =>
        have htasks := tasks_of_takes htakes hub outputs
        have hdata := congrArg Hub.clientData
          (applyOutputs_grown { taken with hub := hub } message outputs).hub
        rw [htasks, List.getElem?_append_right hnew, List.getElem?_map] at hget'
        obtain ⟨_, hstarted, heq⟩ := Option.map_eq_some_iff.mp hget'
        cases heq
        obtain rfl : spec = .PublishQos2Rel p id protocol := hspec'
        obtain ⟨entry, hentry, _, hsame⟩ := started_for hmove
          (List.mem_of_getElem? hstarted) (recoverId_mem_run (.PubRel p id protocol))
        have hmem := List.mem_of_getElem? hstarted
        rw [hsame, List.mem_singleton] at hmem
        obtain rfl : .PubRel p id protocol = entry := toAcknowledge_inj hmem
        exact handed_of_entry hI hI' hsources (hE p) moved hA (hdata ▸ hentry)
    · have := (List.getElem?_eq_some_iff.mp hget').1
      have := tasks_length_of_outside h notHub
      omega

/-- The user hears of a success by the task that comes to its end. -/
theorem success_of_moved (h : Moved w action w') (hmem : .user (.PublishSuccess t) ∈ w'.log) :
    .user (.PublishSuccess t) ∈ w.log ∨
      ∃ (i : Nat) (task : Tasks.Task) (msg : UserMsg) (rest : List Instr),
        w.tasks[i]? = some task ∧ task.prog = .txToUser msg :: rest ∧
          msg.event task.ack = .PublishSuccess t := by
  rcases hub_or_not h with ⟨a, rfl, hmoved⟩ | notHub
  · left
    cases hmoved with
    | @intro input message taken hub outputs htakes hmove =>
      obtain ⟨events, hlog, hinside⟩ := log_of_takes htakes hub outputs
      rw [hlog] at hmem
      rcases List.mem_append.mp hmem with hnew | hold
      · have := Completions.completes_of_inside (t := t) hmove (hinside _ hnew)
        simp [Completions.completes] at this
      · exact hold
  · obtain ⟨events, hlog, _⟩ := log_outside h notHub
    cases h with
    | hub h => exact absurd rfl (notHub _)
    | task hget h =>
      cases h with
      | txToUser hphase hprog =>
        rcases List.mem_cons.mp hmem with hnew | hold
        · exact .inr ⟨_, _, _, _, hget, hprog, (Event.user.inj hnew).symm⟩
        · exact .inl hold
      | acked hphase hprog htake hrel => exact .inl (List.mem_of_ne_of_mem (by simp) hmem)
      | _ => exact .inl hmem
    | ping hget h => cases h <;> exact .inl hmem
    | network hget h =>
      cases h with
      | @read packet => cases packet <;> exact .inl hmem
      | _ => exact .inl hmem
    | brokerRecv hget hto => exact .inl (List.mem_of_ne_of_mem (by simp) hmem)
    | brokerSend hget => exact .inl (List.mem_of_ne_of_mem (by simp) hmem)
    | _ => exact .inl hmem

theorem attested_of_step (hI : Apart w) (hI' : Apart w') (hsources : Provenance.Sources w)
    (hE : ∀ p, Exact p w) (h : Moved w action w') (hA : Attested w) : Attested w' := by
  refine ⟨fun i task p id protocol hget hspec =>
    attested_tasks hI hI' hsources hE h hA hget hspec, fun t hmem => ?_⟩
  refine Succeeded.mono ?_ (log_grows h)
  rcases success_of_moved h hmem with hold | ⟨i, task, msg, rest, hget, hprog, hevent⟩
  · exact hA.told t hold
  · have hrun : .txToUser msg ∈ task.spec.run := (hI.track i task hget).subset (by simp [hprog])
    have reason := hsources.tasks i task hget
    rcases Provenance.told_by_run hrun with ⟨trace, hspec, rfl⟩ | ⟨trace, hspec, rfl⟩ |
      ⟨p, id, protocol, hspec, rfl⟩ | ⟨trace, hspec, rfl⟩ | ⟨trace, hspec, rfl⟩ <;> cases hevent
    · rw [hspec] at reason
      cases reason with
      | publishQos0 h => exact .inl ⟨trace, h, rfl⟩
    · rw [hspec] at reason
      cases reason with
      | publishQos1 h => exact .inr (.inl ⟨trace, h, rfl⟩)
    · exact .inr (.inr ⟨p, hA.tasks i task p _ protocol hget hspec⟩)

theorem reachable_attested {options : MqttOptions} {protocol : Protocol}
    (h : Reachable World.step keepsToQos2 (.init options protocol) w) : Attested w := by
  refine h.invariant ⟨fun i task p id protocol hget => ?_, fun t hmem => ?_⟩ ?_
  · cases hget
  · exact absurd hmem List.not_mem_nil
  · intro s action s' hreach ih hok hstep
    have hI' := standing_of_qos2 (hreach.next hok hstep)
    have hsources := Provenance.reachable_sources (hreach.mono fun _ _ _ => trivial)
    exact attested_of_step (standing_of_qos2 hreach).apart hI'.apart hsources
      (reachable_exact hreach) (moved_of_step hstep) ih

end Telling

/-- With a broker that keeps to the handshake, in every run with one connection and, for
each QoS 2 request, one task at a time: (a) as long as no PUBLISH under a packet id is
open, what the broker has handed on under it are the requests that the hub took in under
it, each once and in that order; (b) of an open one, whose PUBREC the hub has not heard
of, all requests before it are handed on, and its own message once or not yet; (c) when
the user is told that a QoS 2 publish has succeeded, its message is handed on. -/
theorem handed_on_exactly_once {options : MqttOptions} {protocol : Protocol} {w : World}
    (h : Reachable World.step keepsToQos2 (.init options protocol) w) :
    (∀ p, (∀ trace, .PublishQoS2 trace ∈ w.hub.clientData → trace.packetId ≠ p) →
      handsOn false (signalsRead p w) = asked p w.log) ∧
    (∀ trace, .PublishQoS2 trace ∈ w.hub.clientData →
      ∃ before, asked trace.packetId w.log = before ++ [original trace] ∧
        (handsOn false (signalsRead trace.packetId w) = before ∨
          handsOn false (signalsRead trace.packetId w) = before ++ [original trace])) ∧
    ∀ t, .user (.PublishSuccess t) ∈ w.log → Succeeded w t := by
  refine ⟨fun p hnone => ?_, fun trace hmem => ?_, (reachable_attested h).told⟩
  · have hE := reachable_exact h p
    by_cases hrel : ∃ id protocol, .PubRel p id protocol ∈ w.hub.clientData
    · obtain ⟨id, protocol, hmem⟩ := hrel
      obtain ⟨before, message, hasked, hfreed⟩ := hE.freed id protocol hmem
      rw [hasked]
      exact hfreed.handed
    · refine (hE.idle fun entry hmem htwo hid => ?_).handed
      cases entry with
      | PublishQoS2 trace => exact hnone trace hmem hid
      | PubRel q id protocol => exact hrel ⟨id, protocol, (show q = p from hid) ▸ hmem⟩
      | _ => cases htwo
  · obtain ⟨before, hasked, hoffered⟩ := (reachable_exact h trace.packetId).offered trace hmem rfl
    refine ⟨before, hasked, ?_⟩
    cases hoffered with
    | waiting handed => exact .inl handed
    | held handed => exact .inr handed

/-- The PUBLISH is repeated, and the connection breaks before the PUBREL is written. -/
def brokenInBetween : List Action :=
  [.hub (.connect 0), .network 0 (.connected false), .hub (.connecting 0), .hub .load,
    .hub .resend,
    .request (.PublishQoS2 (.init .ExactlyOnce "a" [] false .V4 7)), .hub (.recv 1),
    .task 0 .run, .network 0 (.take 1 none), .task 0 .receipt, .broker 0 .recv,
    .task 0 .timeout, .network 0 (.take 1 none), .task 0 .receipt, .broker 0 .recv,
    .broker 0 (.send (.Ack (.PubRec 1)) 0), .network 0 .read, .task 0 (.ack 1), .task 0 .run,
    .hub (.recv 1), .task 1 .run,
    .network 0 (.readErr "read 0 byte from network"), .task 1 .receiptErr,
    .hub (.network 2), .hub .disconnect, .hub (.connect 0), .network 1 (.connected false),
    .hub (.connecting 3), .hub .load, .hub .resend, .hub .resend,
    .task 2 .run, .network 1 (.take 4 none), .task 2 .receipt, .broker 1 .recv,
    .broker 1 (.send (.Ack (.PubComp 1)) 0), .network 1 .read, .task 2 (.ack 4), .task 2 .run,
    .task 2 .run]

theorem repeated_publish_handed_on_once :
    ∃ w : World, ((received w.log).length = 3 ∧ asked 1 w.log = [original
        (.mk .V4 7 "a" 1 [] false)] ∧ .user (.PublishSuccess 7) ∈ w.log) ∧
      handsOn false (signalsRead 1 w) = asked 1 w.log ∧ Succeeded w 7 := by
  obtain ⟨w, h, hdata, hat, hasked, htold⟩ : ∃ w : World,
      Reachable World.step keepsToQos2 (.init ⟨60, true⟩ .V4) w ∧
        w.hub.clientData = [.PubRel 1 7 .V4] ∧
        (received w.log).length = 3 ∧ asked 1 w.log = [original (.mk .V4 7 "a" 1 [] false)] ∧
        .user (.PublishSuccess 7) ∈ w.log :=
    exists_of_guardedRun brokenInBetween (by decide +kernel)
  obtain ⟨closed, _, told⟩ := handed_on_exactly_once h
  refine ⟨w, ⟨hat, hasked, htold⟩, closed 1 fun trace hmem => ?_, told 7 htold⟩
  rw [hdata] at hmem
  cases List.mem_singleton.mp hmem

end ExactlyOnce
