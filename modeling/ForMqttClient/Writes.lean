import ForMqttClient.Provenance

/-!
# Receipts and writes

`tx_network_default` waits for the receipt of its packet. A receipt is signalled
by a write of just that packet, so a task that goes on behind a send has its
packet on the wire. While one `TaskNetwork` is live at a time the outcome of a
send is exact: it fails only if the packet was not written and never will be.
-/

namespace Writes

open MqttData TaskHub HubSteps Tasks System SystemSteps TaskRuns GuardedRuns Handover Completions
open Provenance Orphans

/-- A network task has written the packet to its stream. -/
def Written (w : World) (packet : Outgoing) : Prop :=
  ∃ n network, w.networks[n]? = some network ∧
    (packet ∈ network.toBroker ∨ .brokerGot n packet ∈ w.log)

/-- In the run from `start` a network task has written a packet that `sender` had sent
under the receipt. -/
def Wrote (start : World) (sender : Worker) (packet : Outgoing) (receipt : Nat) (w : World) :
    Prop :=
  ∃ u u' n j message rest, Reachable World.step free start u ∧
    PairFifo.take Envelope.channel u.bus j =
      some (⟨sender, .network n, .data packet receipt, message⟩, rest) ∧
    u.step (.network n (.take j none)) = some u' ∧ Reachable World.step free u' w

/-- One of the packets was written on behalf of task `i`. -/
def OnWire (start : World) (i : Nat) (packets : List Outgoing) (w : World) : Prop :=
  ∃ packet ∈ packets, ∃ receipt, Wrote start (.task i) packet receipt w

/-- The receipt was given out to task `i` for a packet of the await, and signalled only
after a write of it. -/
structure Signalled (start : World) (i : Nat) (w : World) (receipt : Nat) (instr : Instr) :
    Prop where
  known : receipt < w.receipts.length
  carried : ∀ e ∈ w.bus, ∀ packet, e.event = .data packet receipt →
    e.sender = .task i ∧ packet ∈ packets instr
  written : ∀ count, w.receipts[receipt]? = some count → 0 < count →
    OnWire start i (packets instr) w

/-- Where a task stands, its packets have been written. -/
structure Handling (start : World) (i : Nat) (w : World) (task : Task) : Prop where
  sending : ∀ receipt instr rest, task.phase = .sending receipt → task.prog = instr :: rest →
    Signalled start i w receipt instr
  waiting : ∀ instr rest, task.phase = .waiting → task.prog = instr :: rest →
    OnWire start i (packets instr) w
  passed : task.prog ≠ [] → task.prog ≠ task.spec.run → OnWire start i (firstPackets task.spec) w

section Steps

variable {start w w' : World} {action : Action} {packet : Outgoing} {receipt i : Nat}
variable {instr : Instr} {sender : Worker}

/-- What was written stays written. -/
theorem Written.of_moved (h : Moved w action w') (hwritten : Written w packet) :
    Written w' packet := by
  obtain ⟨n, network, hget, hwritten⟩ := hwritten
  have grows := (log_grows h).subset
  have replaced {m : Nat} {before after : Network} (hbefore : w.networks[m]? = some before)
      (hnetworks : w'.networks = w.networks.set m after)
      (hto : packet ∈ before.toBroker → packet ∈ after.toBroker ∨ .brokerGot m packet ∈ w'.log) :
      Written w' packet := by
    by_cases hmn : m = n
    · subst hmn
      cases hget.symm.trans hbefore
      refine ⟨m, after, ?_, hwritten.elim hto (fun hgot => .inr (grows hgot))⟩
      rw [hnetworks, List.getElem?_set_self (List.getElem?_eq_some_iff.mp hget).1]
    · refine ⟨n, network, ?_, hwritten.imp_right (grows ·)⟩
      rw [hnetworks, List.getElem?_set_ne hmn]
      exact hget
  have kept (hnetworks : w'.networks[n]? = some network) : Written w' packet :=
    ⟨n, network, hnetworks, hwritten.imp_right (grows ·)⟩
  cases h with
  | hub h =>
    rcases networks_of_hub h with hsame | ⟨hadded, _⟩
    · exact kept (hsame ▸ hget)
    · refine kept ?_
      rw [hadded, List.getElem?_append_left (List.getElem?_eq_some_iff.mp hget).1]
      exact hget
  | task hget' h => cases h <;> exact kept hget
  | ping hget' h => cases h <;> exact kept hget
  | network hget' h =>
    cases h with
    | @read received message rest hstate hfrom => cases received <;> exact replaced hget' rfl .inl
    | write hstate htake => exact replaced hget' rfl fun hto => .inl (List.mem_append_left _ hto)
    | writeDisconnect hstate =>
      exact replaced hget' rfl fun hto => .inl (List.mem_append_left _ hto)
    | _ => exact replaced hget' rfl .inl
  | @brokerRecv m before got rest hget' hto =>
    refine replaced hget' rfl fun hmem => ?_
    rw [hto] at hmem
    rcases List.mem_cons.mp hmem with rfl | hmem
    · exact .inr List.mem_cons_self
    · exact .inl hmem
  | brokerSend hget' => exact replaced hget' rfl .inl
  | _ => exact kept hget

theorem Written.of_reach {ok : World → Action → Prop} (hwritten : Written w packet)
    (h : Reachable World.step ok w w') : Written w' packet := by
  refine h.invariant (I := fun v => Written v packet) hwritten ?_
  intro v action v' _ ih _ hstep
  exact ih.of_moved (moved_of_step hstep)

theorem Wrote.of_step (hwrote : Wrote start sender packet receipt w)
    (h : w.step action = some w') : Wrote start sender packet receipt w' := by
  obtain ⟨u, u', n, j, message, rest, hreach, htake, hstep, hafter⟩ := hwrote
  exact ⟨u, u', n, j, message, rest, hreach, htake, hstep, hafter.next trivial h⟩

/-- What a network task writes it writes in the step that takes it. -/
theorem write_of_step {n j message : Nat} {rest : List Envelope}
    (htake : PairFifo.take Envelope.channel w.bus j =
      some (⟨sender, .network n, .data packet receipt, message⟩, rest))
    (h : w.step (.network n (.take j none)) = some w') :
    ∃ network, w.networks[n]? = some network ∧
      w' = { w with bus := rest, receipts := w.receipts.modify receipt (· + 1) }.setNetwork n
        { network with toBroker := network.toBroker ++ [packet] } := by
  cases moved_of_step h with
  | @network _ network _ _ hget hmoved =>
    cases hmoved with
    | takeDisconnect hstate htake' => cases htake.symm.trans htake'
    | write hstate htake' =>
      cases htake.symm.trans htake'
      exact ⟨network, hget, rfl⟩

theorem Wrote.written (hwrote : Wrote start sender packet receipt w) : Written w packet := by
  obtain ⟨u, u', n, j, message, rest, hreach, htake, hstep, hafter⟩ := hwrote
  obtain ⟨network, hget, rfl⟩ := write_of_step htake hstep
  have there : Written ({ u with bus := rest, receipts := u.receipts.modify receipt (· + 1)
      }.setNetwork n { network with toBroker := network.toBroker ++ [packet] }) packet :=
    ⟨n, { network with toBroker := network.toBroker ++ [packet] },
      List.getElem?_set_self (List.getElem?_eq_some_iff.mp hget).1,
      .inl (List.mem_append_right _ (List.mem_singleton_self _))⟩
  exact there.of_reach hafter

theorem OnWire.of_step {packets : List Outgoing} (hwire : OnWire start i packets w)
    (h : w.step action = some w') : OnWire start i packets w' := by
  obtain ⟨packet, hpacket, receipt, hwrote⟩ := hwire
  exact ⟨packet, hpacket, receipt, hwrote.of_step h⟩

/-- Receipts are given out one by one, and signalled by a write of their packet. -/
theorem receipts_of_step (hreach : Reachable World.step free start w)
    (h : w.step action = some w') :
    w'.receipts = w.receipts ∨ w'.receipts = w.receipts ++ [0] ∨
      ∃ e ∈ w.bus, ∃ packet receipt, e.event = .data packet receipt ∧
        w'.receipts = w.receipts.modify receipt (· + 1) ∧
        Wrote start e.sender packet receipt w' := by
  cases moved_of_step h with
  | hub hmoved =>
    cases hmoved with
    | @intro input message taken hub outputs htakes hmove =>
      have before : taken.receipts = w.receipts := by cases htakes <;> rfl
      exact .inl ((applyOutputs_receipts _ message outputs).trans before)
  | task hget hmoved =>
    cases hmoved with
    | sendFirst hphase hprog => exact .inr (.inl rfl)
    | sendOnly hphase hprog => exact .inr (.inl rfl)
    | sendAgain hphase hprog => exact .inr (.inl rfl)
    | _ => exact .inl rfl
  | ping hget hmoved =>
    cases hmoved with
    | send => exact .inr (.inl rfl)
    | _ => exact .inl rfl
  | @network n network _ _ hget hmoved =>
    cases hmoved with
    | @write j sender packet r message rest hstate htake =>
      exact .inr (.inr ⟨_, PairFifo.mem_of_take htake, packet, r, rfl, rfl,
        w, _, n, j, message, rest, hreach, htake, h, .start⟩)
    | @read packet => cases packet <;> exact .inl rfl
    | _ => exact .inl rfl
  | _ => exact .inl rfl

theorem signal_of_step (hreach : Reachable World.step free start w) (h : w.step action = some w')
    {count : Nat} (hcount : w.receipts[receipt]? = some count) :
    w'.receipts[receipt]? = some count ∨
      ∃ e ∈ w.bus, ∃ packet, e.event = .data packet receipt ∧
        Wrote start e.sender packet receipt w' := by
  rcases receipts_of_step hreach h with
    hsame | hmore | ⟨e, he, packet, r, hevent, hmodified, hwrote⟩
  · exact .inl (hsame ▸ hcount)
  · left
    rw [hmore, List.getElem?_append_left (List.getElem?_eq_some_iff.mp hcount).1, hcount]
  · by_cases hr : r = receipt
    · subst hr
      exact .inr ⟨e, he, packet, hevent, hwrote⟩
    · left
      rw [hmodified]
      simp [hr, hcount]

theorem Signalled.of_step (hreach : Reachable World.step free start w)
    (h : w.step action = some w') (hI : Signalled start i w receipt instr) :
    Signalled start i w' receipt instr := by
  have hmoved := moved_of_step h
  obtain ⟨count, hcount⟩ : ∃ count, w.receipts[receipt]? = some count :=
    ⟨_, List.getElem?_eq_getElem hI.known⟩
  have known : receipt < w'.receipts.length := by
    rcases receipt_of_moved hmoved hcount with hsame | ⟨hmore, _⟩
    · exact (List.getElem?_eq_some_iff.mp hsame).1
    · exact (List.getElem?_eq_some_iff.mp hmore).1
  refine ⟨known, ?_, ?_⟩
  · intro e he packet hevent
    rcases data_of_moved hmoved he hevent with hold | ⟨_, hfresh, _⟩
    · exact hI.carried e hold packet hevent
    · have := hfresh.receipt
      have := hI.known
      omega
  · intro count' hcount' hpositive
    rcases signal_of_step hreach h hcount with hsame | ⟨e, he, packet, hevent, hwrote⟩
    · cases hsame.symm.trans hcount'
      exact (hI.written count hcount hpositive).of_step h
    · obtain ⟨hsender, hpacket⟩ := hI.carried e he packet hevent
      exact ⟨packet, hpacket, receipt, hsender ▸ hwrote⟩

theorem Handling.of_step (hreach : Reachable World.step free start w)
    (h : w.step action = some w') {task : Task} (hI : Handling start i w task) :
    Handling start i w' task where
  sending := fun receipt instr rest hphase hprog =>
    (hI.sending receipt instr rest hphase hprog).of_step hreach h
  waiting := fun instr rest hphase hprog => (hI.waiting instr rest hphase hprog).of_step h
  passed := fun hlive hbehind => (hI.passed hlive hbehind).of_step h

/-- Only receipts that were given out travel. -/
def Drawn (w : World) : Prop :=
  ∀ e ∈ w.bus, ∀ packet receipt, e.event = .data packet receipt → receipt < w.receipts.length

theorem drawn_of_moved (h : Moved w action w') (hI : Drawn w) : Drawn w' := by
  intro e he packet receipt hevent
  rcases data_of_moved h he hevent with hold | ⟨_, hfresh, hreceipts⟩
  · have known := hI e hold packet receipt hevent
    rcases receipt_of_moved h (List.getElem?_eq_getElem known) with hsame | ⟨hmore, _⟩
    · exact (List.getElem?_eq_some_iff.mp hsame).1
    · exact (List.getElem?_eq_some_iff.mp hmore).1
  · rw [hreceipts, List.length_append, hfresh.receipt]
    exact Nat.lt_succ_self _

/-- The receipt of a send that begins now. -/
theorem signalled_of_send (hdrawn : Drawn w) (hpacket : packet ∈ packets instr)
    (hreceipts : w'.receipts = (w.send (.task i) packet).receipts)
    (hbus : w'.bus = (w.send (.task i) packet).bus) :
    Signalled start i w' w.receipts.length instr := by
  have fresh : w'.receipts = w.receipts ++ [0] := hreceipts
  refine ⟨?_, ?_, ?_⟩
  · rw [fresh, List.length_append]
    exact Nat.lt_succ_self _
  · intro e he packet' hevent
    rcases data_of_send (hbus ▸ he) hevent with hold | ⟨rfl, hfresh⟩
    · exact absurd (hdrawn e hold packet' _ hevent) (Nat.lt_irrefl _)
    · exact ⟨hfresh.sender, hpacket⟩
  · intro count hcount hpositive
    have zero : (w.receipts ++ [0])[w.receipts.length]? = some 0 := by simp
    rw [fresh, zero] at hcount
    cases hcount
    cases hpositive

/-! ### Receipts and writes -/

/-- A receipt that was signalled stands for a write. -/
theorem wrote_of_signal (h : Reachable World.step free start w) (hfirst : start.receipts = []) :
    ∀ {receipt count}, w.receipts[receipt]? = some count → 0 < count →
      ∃ sender packet, Wrote start sender packet receipt w := by
  refine h.invariant (I := fun w => ∀ {receipt count}, w.receipts[receipt]? = some count →
    0 < count → ∃ sender packet, Wrote start sender packet receipt w) ?_ ?_
  · intro receipt count hcount
    rw [hfirst] at hcount
    cases hcount
  · intro v action v' hreach ih _ hstep receipt count hcount hpositive
    have known : receipt < v.receipts.length →
        ∃ sender packet, Wrote start sender packet receipt v' := by
      intro hlt
      rcases signal_of_step hreach hstep (List.getElem?_eq_getElem hlt) with hsame |
        ⟨e, _, packet, _, hwrote⟩
      · cases hsame.symm.trans hcount
        obtain ⟨sender, packet, hwrote⟩ := ih (List.getElem?_eq_getElem hlt) hpositive
        exact ⟨sender, packet, hwrote.of_step hstep⟩
      · exact ⟨e.sender, packet, hwrote⟩
    have hlt' := (List.getElem?_eq_some_iff.mp hcount).1
    rcases receipts_of_step hreach hstep with hsame | hmore | ⟨_, _, _, _, _, hmodified, _⟩
    · exact known (hsame ▸ hlt')
    · by_cases hlt : receipt < v.receipts.length
      · exact known hlt
      · rw [hmore, List.getElem?_append_right (Nat.le_of_not_lt hlt)] at hcount
        cases List.mem_singleton.mp (List.mem_of_getElem? hcount)
        cases hpositive
    · rw [hmodified, List.length_modify] at hlt'
      exact known hlt'

theorem drawn_of_reach (hfirst : Drawn start) (h : Reachable World.step free start w) :
    Drawn w := by
  refine h.invariant hfirst ?_
  intro v action v' _ ih _ hstep
  exact drawn_of_moved (moved_of_step hstep) ih

/-- A write signals the receipt of its packet, for good. -/
theorem signal_of_wrote (hfirst : Drawn start) (hwrote : Wrote start sender packet receipt w) :
    ∃ count, w.receipts[receipt]? = some count ∧ 0 < count := by
  obtain ⟨u, u', n, j, message, rest, hreach, htake, hstep, hafter⟩ := hwrote
  refine hafter.invariant (I := fun v => ∃ count, v.receipts[receipt]? = some count ∧ 0 < count)
    ?_ ?_
  · obtain ⟨network, hget, rfl⟩ := write_of_step htake hstep
    have known := drawn_of_reach hfirst hreach _ (PairFifo.mem_of_take htake) packet receipt rfl
    refine ⟨u.receipts[receipt] + 1, ?_, Nat.succ_pos _⟩
    simp [List.getElem?_eq_getElem known]
  · rintro v action v' _ ⟨count, hcount, hpositive⟩ _ hstep'
    rcases receipt_of_moved (moved_of_step hstep') hcount with hsame | ⟨hmore, _⟩
    · exact ⟨count, hsame, hpositive⟩
    · exact ⟨count + 1, hmore, Nat.succ_pos _⟩

/-! ### One step of a task -/

section Await

variable {task after : Task} {rest : List Instr}

/-- Where the head is written, or was passed before, so is the first await. -/
theorem Handling.first_of_head (hI : Handling start i w task) (hprog : task.prog = instr :: rest)
    (hhead : OnWire start i (packets instr) w) : OnWire start i (firstPackets task.spec) w := by
  obtain ⟨first, tail, hrun, hfirst, _⟩ := run_head task.spec
  by_cases hwhole : task.prog = task.spec.run
  · rw [hwhole, hrun] at hprog
    rw [hfirst, (List.cons.inj hprog).1]
    exact hhead
  · exact hI.passed (by rw [hprog]; exact List.cons_ne_nil _ _) hwhole

/-- An await without packets is never the first one. -/
theorem Handling.first_of_silent (hI : Handling start i w task)
    (hprog : task.prog = instr :: rest) (hnone : packets instr = []) :
    OnWire start i (firstPackets task.spec) w := by
  obtain ⟨first, tail, hrun, _, hpackets⟩ := run_head task.spec
  refine hI.passed (by rw [hprog]; exact List.cons_ne_nil _ _) fun hwhole => ?_
  rw [hwhole, hrun] at hprog
  rw [(List.cons.inj hprog).1] at hpackets
  exact hpackets hnone

/-- A receipt that has come means that the packet of the await is written. -/
theorem Handling.head_of_done (hI : Handling start i w task)
    (hphase : task.phase = .sending receipt) (hprog : task.prog = instr :: rest)
    (hdone : w.receiptDone receipt = true) : OnWire start i (packets instr) w :=
  (hI.sending receipt instr rest hphase hprog).written 1
    (by simpa [World.receiptDone] using hdone) Nat.one_pos

/-- A task goes on behind an await. -/
theorem handling_of_ready (hphase : after.phase = .ready) (hspec : after.spec = task.spec)
    (hfirst : OnWire start i (firstPackets task.spec) w) : Handling start i w after := by
  refine ⟨?_, ?_, fun _ _ => hspec ▸ hfirst⟩
  · intro receipt instr rest hsending
    cases hphase.symm.trans hsending
  · intro instr rest hwaiting
    cases hphase.symm.trans hwaiting

/-- A task sends a packet of the await at its head, for the first time or again. -/
theorem handling_of_send (hdrawn : Drawn w) (hI : Handling start i w task)
    (h : w.step action = some w') (hprog : task.prog = instr :: rest)
    (hpacket : packet ∈ packets instr)
    (hreceipts : w'.receipts = (w.send (.task i) packet).receipts)
    (hbus : w'.bus = (w.send (.task i) packet).bus) :
    Handling start i w' { task with phase := .sending w.receipts.length } := by
  refine ⟨?_, ?_, fun hlive hbehind => (hI.passed hlive hbehind).of_step h⟩
  · intro receipt instr' rest' hsending hprog'
    cases hsending
    cases hprog.symm.trans hprog'
    exact signalled_of_send hdrawn hpacket hreceipts hbus
  · intro _ _ hwaiting
    cases hwaiting

/-- A task waits for the answer to what it has sent. -/
theorem handling_of_receipt (hI : Handling start i w task) (h : w.step action = some w')
    (hphase : task.phase = .sending receipt) (hprog : task.prog = instr :: rest)
    (hdone : w.receiptDone receipt = true) :
    Handling start i w' { task with phase := .waiting } := by
  refine ⟨?_, ?_, fun hlive hbehind => (hI.passed hlive hbehind).of_step h⟩
  · intro _ _ _ hsending
    cases hsending
  · intro instr' rest' _ hprog'
    cases hprog.symm.trans hprog'
    exact (hI.head_of_done hphase hprog hdone).of_step h

/-- The step of a task leaves it with the packets behind it written. -/
theorem handling_of_task {a : TaskAction} (hreach : Reachable World.step free start w)
    (hdrawn : Drawn w) (hget : w.tasks[i]? = some task) (hmoved : TaskMoved w i task a w')
    (h : w.step (.task i a) = some w') (hget' : w'.tasks[i]? = some after)
    (hI : Handling start i w task) : Handling start i w' after := by
  have replaced {next : Task} (htasks : w'.tasks = w.tasks.set i next)
      (hnext : Handling start i w' next) : Handling start i w' after := by
    rw [htasks, List.getElem?_set_self (List.getElem?_eq_some_iff.mp hget).1] at hget'
    exact Option.some.inj hget' ▸ hnext
  have ready {next : Task} (htasks : w'.tasks = w.tasks.set i next)
      (hphase : next.phase = .ready) (hspec : next.spec = task.spec)
      (hfirst : OnWire start i (firstPackets task.spec) w) : Handling start i w' after :=
    replaced htasks (handling_of_ready hphase hspec (hfirst.of_step h))
  cases hmoved with
  | sendFirst hphase hprog =>
    exact replaced rfl (handling_of_send hdrawn hI h hprog List.mem_cons_self rfl rfl)
  | sendOnly hphase hprog =>
    exact replaced rfl (handling_of_send hdrawn hI h hprog List.mem_cons_self rfl rfl)
  | sendAgain hphase hprog =>
    exact replaced rfl (handling_of_send hdrawn hI h hprog
      (List.mem_cons_of_mem _ List.mem_cons_self) rfl rfl)
  | dispatch hphase hprog => exact ready rfl hphase rfl (hI.first_of_silent hprog rfl)
  | txToUser hphase hprog => exact ready rfl hphase rfl (hI.first_of_silent hprog rfl)
  | transmitted hphase hprog hdone =>
    exact replaced rfl (handling_of_receipt hI h hphase hprog hdone)
  | sent hphase hprog hdone =>
    exact ready rfl rfl rfl (hI.first_of_head hprog (hI.head_of_done hphase hprog hdone))
  | died hphase hlost =>
    refine replaced rfl ⟨?_, ?_, fun hlive => absurd rfl hlive⟩
    · intro receipt instr rest hsending
      cases hsending
    · intro instr rest hwaiting
      cases hwaiting
  | acked hphase hprog htake hrel =>
    exact ready rfl rfl rfl (hI.first_of_head hprog (hI.waiting _ _ hphase hprog))
  | skipped hphase hprog htake hrel =>
    obtain rfl := Option.some.inj (hget.symm.trans hget')
    exact hI.of_step hreach h

end Await

/-! ### Reports -/

/-- In the run from `start` task `i` has told the user `event`, in a state with `P`. -/
def ToldBy (start : World) (i : Nat) (event : MqttEvent) (P : World → Prop) (w : World) : Prop :=
  ∃ v v', Reachable World.step free start v ∧ P v ∧ v.step (.task i .run) = some v' ∧
    v'.log = .user event :: v.log ∧ Reachable World.step free v' w

/-- The event was told by a task of the request with trace id `t` that had had its first
packet written. -/
def ReportWritten (start : World) (event : MqttEvent) (t : TraceId) (w : World) : Prop :=
  ∃ (i : Nat) (task : Tasks.Task) (packet : Outgoing) (receipt : Nat),
    w.tasks[i]? = some task ∧ completedId task.spec = some t ∧
    packet ∈ firstPackets task.spec ∧
    ToldBy start i event (Wrote start (.task i) packet receipt) w

structure Writing (start w : World) : Prop where
  drawn : Drawn w
  track : OnTrack w
  handling : ∀ (i : Nat) (task : Task), w.tasks[i]? = some task → Handling start i w task
  told : ∀ event t, .user event ∈ w.log → completes t (.user event) = true →
    ReportWritten start event t w

theorem handling_init (w : World) (spec : TaskSpec) : Handling start i w (.init spec) := by
  refine ⟨?_, ?_, fun _ hbehind => absurd rfl hbehind⟩
  · intro receipt instr rest hsending
    cases hsending
  · intro instr rest hwaiting
    cases hwaiting

theorem handling_of_step (hreach : Reachable World.step free start w) (hI : Writing start w)
    (h : w.step action = some w') {task' : Task} (hget' : w'.tasks[i]? = some task') :
    Handling start i w' task' := by
  have hmoved := moved_of_step h
  by_cases hown : ∃ a, action = .task i a
  · obtain ⟨a, rfl⟩ := hown
    cases hmoved with
    | task hget hmoved =>
      exact handling_of_task hreach hI.drawn hget hmoved h hget' (hI.handling i _ hget)
  · have hother : ∀ a, action ≠ .task i a := fun a ha => hown ⟨a, ha⟩
    rcases hub_or_not hmoved with ⟨a, rfl, hhub⟩ | notHub
    · obtain ⟨specs, htasks⟩ := tasks_of_hub hhub
      rw [htasks] at hget'
      by_cases hi : i < w.tasks.length
      · rw [List.getElem?_append_left hi] at hget'
        exact (hI.handling i task' hget').of_step hreach h
      · rw [List.getElem?_append_right (by omega), List.getElem?_map] at hget'
        obtain ⟨spec, _, rfl⟩ := Option.map_eq_some_iff.mp hget'
        exact handling_init w' spec
    · rw [task_of_other hmoved notHub hother] at hget'
      exact (hI.handling i task' hget').of_step hreach h

theorem ReportWritten.of_step (h : w.step action = some w') {event : MqttEvent} {t : TraceId}
    (hI : ReportWritten start event t w) : ReportWritten start event t w' := by
  obtain ⟨i, task, packet, receipt, hget, hid, hpacket, v, v', hreach, hwrote, hstep, hlog,
    hafter⟩ := hI
  obtain ⟨task', hget', hspec⟩ := spec_of_moved (moved_of_step h) hget
  exact ⟨i, task', packet, receipt, hget', hspec ▸ hid, hspec ▸ hpacket,
    v, v', hreach, hwrote, hstep, hlog, hafter.next trivial h⟩

/-- A task that tells the user of a completion has had its first packet written. -/
theorem report_of_told (hreach : Reachable World.step free start w) (hI : Writing start w)
    {task : Task} (hget : w.tasks[i]? = some task) {msg : UserMsg} {rest : List Instr}
    (hprog : task.prog = .txToUser msg :: rest) (h : w.step (.task i .run) = some w')
    (hlog : w'.log = .user (msg.event task.ack) :: w.log) {t : TraceId}
    (ht : completes t (.user (msg.event task.ack)) = true) :
    ReportWritten start (msg.event task.ack) t w' := by
  obtain ⟨packet, hpacket, receipt, hwrote⟩ :=
    (hI.handling i task hget).first_of_silent hprog rfl
  have told : .txToUser msg ∈ task.spec.run := by
    apply (hI.track i task hget).subset
    rw [hprog]
    exact List.mem_cons_self
  rw [completes_event, beq_iff_eq] at ht
  have reports : completedId task.spec = some t := by
    rw [← ht]
    rcases told_by_run told with ⟨_, hspec, rfl⟩ | ⟨_, hspec, rfl⟩ |
      ⟨_, _, _, hspec, rfl⟩ | ⟨_, hspec, rfl⟩ | ⟨_, hspec, rfl⟩ <;> rw [hspec] <;> rfl
  obtain ⟨task', hget', hspec⟩ := spec_of_moved (moved_of_step h) hget
  exact ⟨i, task', packet, receipt, hget', hspec ▸ reports, hspec ▸ hpacket,
    w, w', hreach, hwrote, h, hlog, .start⟩

/-- Nothing but a report of a task adds a completion to the history. -/
theorem completion_of_step (h : w.step action = some w') {event : MqttEvent} {t : TraceId}
    (hmem : .user event ∈ w'.log) (ht : completes t (.user event) = true) :
    .user event ∈ w.log ∨ ∃ i task msg rest, action = .task i .run ∧ w.tasks[i]? = some task ∧
      task.prog = .txToUser msg :: rest ∧ event = msg.event task.ack ∧
      w'.log = .user (msg.event task.ack) :: w.log := by
  have hmoved := moved_of_step h
  have told_before {other : Event} (hmem : .user event ∈ other :: w.log)
      (hother : other ≠ .user event := by simp) : .user event ∈ w.log :=
    (List.mem_cons.mp hmem).resolve_left (Ne.symm hother)
  rcases hub_or_not hmoved with ⟨a, rfl, hhub⟩ | notHub
  · cases hhub with
    | @intro input message taken hub outputs htakes hmove =>
      obtain ⟨events, hlog, hinside⟩ := log_of_takes htakes hub outputs
      rw [hlog] at hmem
      rcases List.mem_append.mp hmem with hnew | hold
      · rw [completes_of_inside hmove (hinside _ hnew)] at ht
        cases ht
      · exact .inl hold
  · rcases task_or_not hmoved with ⟨i, task, a, rfl, hget, htask⟩ | notTask
    · cases htask with
      | @txToUser msg rest hphase hprog =>
        rcases List.mem_cons.mp hmem with hnew | hold
        · cases hnew
          exact .inr ⟨i, task, msg, rest, rfl, hget, hprog, rfl, rfl⟩
        · exact .inl hold
      | acked hphase hprog htake hrel =>
        exact .inl (told_before hmem)
      | _ => exact .inl hmem
    · cases hmoved with
      | hub hhub => exact absurd rfl (notHub _)
      | task hget htask => exact absurd rfl (notTask _ _)
      | ping hget hping => cases hping <;> exact .inl hmem
      | network hget hnetwork =>
        cases hnetwork with
        | @read packet => cases packet <;> exact .inl hmem
        | _ => exact .inl hmem
      | brokerRecv hget hto => exact .inl (told_before hmem)
      | brokerSend hget => exact .inl (told_before hmem)
      | _ => exact .inl hmem

theorem writing_of_step (hreach : Reachable World.step free start w) (hI : Writing start w)
    (h : w.step action = some w') : Writing start w' where
  drawn := drawn_of_moved (moved_of_step h) hI.drawn
  track := onTrack_of_moved (moved_of_step h) hI.track
  handling := fun _ _ hget => handling_of_step hreach hI h hget
  told := by
    intro event t hmem ht
    rcases completion_of_step h hmem ht with hold |
      ⟨i, task, msg, rest, rfl, hget, hprog, rfl, hlog⟩
    · exact (hI.told event t hold ht).of_step h
    · exact report_of_told hreach hI hget hprog h hlog ht

theorem reachable_writing {options : MqttOptions} {protocol : Protocol}
    (h : Reachable World.step free (.init options protocol) w) :
    Writing (.init options protocol) w := by
  refine h.invariant (I := fun v => Writing (.init options protocol) v) ⟨?_, ?_, ?_, ?_⟩ ?_
  · intro e he
    cases he
  · intro i task hget
    cases hget
  · intro i task hget
    cases hget
  · intro event t hmem
    cases hmem
  · intro s action s' hreach ih _ hstep
    exact writing_of_step hreach ih hstep

end Steps

/-- In every run a request is reported complete only by a task of it that has had a packet
written: before the step in which it reports, a network task has written a packet that this
task had sent, the packet that it starts with. -/
theorem completions_written {options : MqttOptions} {protocol : Protocol} {w : World}
    (h : Reachable World.step free (.init options protocol) w) {event : MqttEvent} {t : TraceId}
    (hmem : .user event ∈ w.log) (ht : completes t (.user event) = true) :
    ∃ (i : Nat) (task : Tasks.Task) (packet : Outgoing) (receipt : Nat),
      w.tasks[i]? = some task ∧ completedId task.spec = some t ∧
      packet ∈ firstPackets task.spec ∧ Written w packet ∧
      ToldBy (.init options protocol) i event
        (Wrote (.init options protocol) (.task i) packet receipt) w := by
  obtain ⟨i, task, packet, receipt, hget, hid, hpacket, v, v', hreach, hwrote, hstep, hlog,
    hafter⟩ := (reachable_writing h).told event t hmem ht
  have written := (hwrote.of_step hstep).written.of_reach hafter
  exact ⟨i, task, packet, receipt, hget, hid, hpacket, written,
    v, v', hreach, hwrote, hstep, hlog, hafter⟩

/-- A QoS 1 publish that was written and acknowledged. -/
def publishedOnce : List Action :=
  [.hub (.connect 0), .network 0 (.connected false), .hub (.connecting 0), .hub .load,
    .hub .resend, .request (.PublishQoS1 (.init .AtLeastOnce "a" [] false .V4 7)), .hub (.recv 1),
    .task 0 .run, .network 0 (.take 1 none), .task 0 .receipt, .broker 0 .recv,
    .broker 0 (.send (.Ack (.PubAck 1)) 0), .network 0 .read, .task 0 (.ack 1), .task 0 .run,
    .task 0 .run, .task 0 .run]

theorem published_once_written :
    ∃ w, Reachable World.step free (.init ⟨60, true⟩ .V4) w ∧
      .user (.PublishSuccess 7) ∈ w.log ∧
      ∃ (i : Nat) (task : Tasks.Task) (packet : Outgoing) (receipt : Nat),
        w.tasks[i]? = some task ∧ completedId task.spec = some 7 ∧
        packet ∈ firstPackets task.spec ∧ Written w packet ∧
        ToldBy (.init ⟨60, true⟩ .V4) i (.PublishSuccess 7)
          (Wrote (.init ⟨60, true⟩ .V4) (.task i) packet receipt) w := by
  obtain ⟨w, h, hmem⟩ : ∃ w, Reachable World.step free (.init ⟨60, true⟩ .V4) w ∧
      .user (.PublishSuccess 7) ∈ w.log :=
    exists_of_guardedRun publishedOnce (by decide +kernel)
  exact ⟨w, h, hmem, completions_written h hmem rfl⟩

/-! ## One connection at a time -/

/-- Data travels to network tasks that were started. -/
def Addressed (w : World) : Prop :=
  ∀ e ∈ w.bus, ∀ packet receipt, e.event = .data packet receipt →
    ∃ n, n < w.networks.length ∧ e.receiver = .network n

/-- The receipt was given out, and no live network task has data of it. -/
structure Settled (w : World) (receipt : Nat) : Prop where
  known : receipt < w.receipts.length
  dead : ∀ e ∈ w.bus, ∀ packet, e.event = .data packet receipt →
    ∃ n, n < w.networks.length ∧ e.receiver = .network n ∧ w.networkLive n = false

section Outcomes

variable {w w' : World} {action : Action} {receipt : Nat}

theorem addressed_of_moved (h : Moved w action w') (hI : Addressed w) : Addressed w' := by
  intro e he packet receipt hevent
  have more := networks_length_le h
  rcases data_of_moved h he hevent with hold | ⟨_, hfresh, _⟩
  · obtain ⟨n, hn, hreceiver⟩ := hI e hold packet receipt hevent
    exact ⟨n, Nat.lt_of_lt_of_le hn more, hreceiver⟩
  · obtain ⟨n, hlive, hreceiver⟩ := hfresh.receiver
    exact ⟨n, Nat.lt_of_lt_of_le (lt_of_networkLive hlive) more, hreceiver⟩

theorem reachable_addressed {ok : World → Action → Prop} {options : MqttOptions}
    {protocol : Protocol} (h : Reachable World.step ok (.init options protocol) w) :
    Addressed w := by
  refine h.invariant ?_ ?_
  · intro e he
    cases he
  · intro s action s' _ ih _ hstep
    exact addressed_of_moved (moved_of_step hstep) ih

/-- A settled receipt is never signalled again. -/
theorem Settled.count_of_moved (hI : Settled w receipt) (h : Moved w action w') :
    w'.receipts[receipt]? = w.receipts[receipt]? := by
  have known := hI.known
  have hcount : w.receipts[receipt]? = some w.receipts[receipt] := List.getElem?_eq_getElem known
  rcases receipt_of_moved h hcount with hsame | ⟨hmore, _⟩
  · rw [hsame, hcount]
  · -- a write takes data of the receipt out of the queue of a live network task
    cases h with
    | @network n network a _ hget h =>
      cases h with
      | @write j sender packet r message rest hstate htake =>
        by_cases hr : r = receipt
        · subst hr
          obtain ⟨m, _, hreceiver, hdead⟩ :=
            hI.dead _ (PairFifo.mem_of_take htake) packet rfl
          cases hreceiver
          have live : w.networkLive n = true :=
            networkLive_iff.mpr ⟨network, hget, by simp [Network.live, hstate]⟩
          rw [live] at hdead
          cases hdead
        · have modified : (w.receipts.modify r (· + 1))[receipt]? = w.receipts[receipt]? := by
            simp [hr]
          exact modified
      | @read packet => cases packet <;> rfl
      | _ => rfl
    | hub h =>
      cases h with
      | @intro input message taken hub outputs htakes hmove =>
        have before : taken.receipts = w.receipts := by cases htakes <;> rfl
        rw [applyOutputs_receipts]
        exact congrArg (·[receipt]?) before
    | task hget h =>
      cases h with
      | sendFirst hphase hprog => exact List.getElem?_append_left hI.known
      | sendOnly hphase hprog => exact List.getElem?_append_left hI.known
      | sendAgain hphase hprog => exact List.getElem?_append_left hI.known
      | _ => rfl
    | ping hget h =>
      cases h with
      | send => exact List.getElem?_append_left hI.known
      | _ => rfl
    | _ => rfl

theorem Settled.of_moved (hI : Settled w receipt) (h : Moved w action w') :
    Settled w' receipt := by
  have same := hI.count_of_moved h
  have known : receipt < w'.receipts.length := by
    rw [List.getElem?_eq_getElem hI.known] at same
    exact (List.getElem?_eq_some_iff.mp same).1
  refine ⟨known, ?_⟩
  intro e he packet hevent
  rcases data_of_moved h he hevent with hold | ⟨_, hfresh, _⟩
  · obtain ⟨n, hn, hreceiver, hdead⟩ := hI.dead e hold packet hevent
    refine ⟨n, Nat.lt_of_lt_of_le hn (networks_length_le h), hreceiver, ?_⟩
    rw [← Bool.not_eq_true]
    intro hlive
    rw [live_before h hn hlive] at hdead
    cases hdead
  · have := hfresh.receipt
    have := hI.known
    omega

/-- In every continuation a settled receipt keeps its count. -/
theorem Settled.final (hI : Settled w receipt) (h : Reachable World.step free w w') :
    w'.receipts[receipt]? = w.receipts[receipt]? := by
  have kept : Settled w' receipt ∧ w'.receipts[receipt]? = w.receipts[receipt]? := by
    refine h.invariant (I := fun s => Settled s receipt ∧
      s.receipts[receipt]? = w.receipts[receipt]?) ⟨hI, rfl⟩ ?_
    intro s action s' _ ih _ hstep
    have moved := moved_of_step hstep
    exact ⟨ih.1.of_moved moved, (ih.1.count_of_moved moved).trans ih.2⟩
  exact kept.2

end Outcomes

/-- In every run in which at most one `TaskNetwork` is live at a time, a send ends exactly as
its packet fares: when its receipt is signalled a packet of it was written, once and in no
continuation again, when the receipt is lost none was written and none ever will be, and
else it is in the queue of the live `TaskNetwork`. -/
theorem send_outcomes_exact {options : MqttOptions} {protocol : Protocol} {w : World}
    (h : Reachable World.step (fun w a => keepsOneLive w a = true) (.init options protocol) w)
    {receipt : Nat} (hknown : receipt < w.receipts.length) :
    (w.receiptDone receipt = true →
      (∃ sender packet, Wrote (.init options protocol) sender packet receipt w ∧
        Written w packet) ∧
      ∀ w', Reachable World.step free w w' → w'.receipts[receipt]? = some 1) ∧
    (w.receiptLost receipt = true → ∀ w', Reachable World.step free w w' →
      w'.receipts[receipt]? = some 0 ∧
      ∀ sender packet, ¬ Wrote (.init options protocol) sender packet receipt w') ∧
    (w.receiptDone receipt = false → w.receiptLost receipt = false →
      ∃ e ∈ w.bus, ∃ n packet, e.receiver = .network n ∧ w.networkLive n = true ∧
        e.event = .data packet receipt) := by
  have background := reachable_background h
  have addressed := reachable_addressed h
  have once := background.signals.once receipt
  have hcount : w.receipts[receipt]? = some w.receipts[receipt] := List.getElem?_eq_getElem hknown
  have getD : w.receipts.getD receipt 0 = w.receipts[receipt] := by simp [List.getD, hcount]
  rw [signals, getD] at once
  refine ⟨?_, ?_, ?_⟩
  · intro hdone
    have one : w.receipts[receipt]? = some 1 := by simpa [World.receiptDone] using hdone
    have signalled : w.receipts[receipt] = 1 := Option.some.inj (hcount.symm.trans one)
    have settled : Settled w receipt := by
      refine ⟨hknown, fun e he packet hevent => ?_⟩
      have travels : 0 < w.bus.countP (carries receipt) :=
        List.countP_pos_iff.mpr ⟨e, he, by simp [carries, hevent]⟩
      omega
    obtain ⟨sender, packet, hwrote⟩ :=
      wrote_of_signal (h.mono fun _ _ _ => trivial) rfl one Nat.one_pos
    exact ⟨⟨sender, packet, hwrote, hwrote.written⟩,
      fun w' hreach => (settled.final hreach).trans one⟩
  · intro hlost w' hreach
    have notKept : ¬w.receiptLost receipt = false := by simp [hlost]
    rw [kept_iff, not_or, not_and] at notKept
    have zero : w.receipts[receipt]? = some 0 := by
      rw [hcount]
      have notOne : w.receipts[receipt] ≠ 1 := fun heq => notKept.1 (heq ▸ hcount)
      have : w.receipts[receipt] = 0 := by omega
      rw [this]
    have settled : Settled w receipt := by
      refine ⟨hknown, fun e he packet hevent => ?_⟩
      obtain ⟨n, hn, hreceiver⟩ := addressed e he packet receipt hevent
      refine ⟨n, hn, hreceiver, ?_⟩
      rw [← Bool.not_eq_true]
      intro hlive
      exact notKept.2 zero ⟨e, he, holds_of_data hreceiver hevent hlive⟩
    have still := (settled.final hreach).trans zero
    refine ⟨still, fun sender packet hwrote => ?_⟩
    have nothing : Drawn (.init options protocol) := fun e he => absurd he List.not_mem_nil
    obtain ⟨count, hsignalled, hpositive⟩ := signal_of_wrote nothing hwrote
    cases still.symm.trans hsignalled
    cases hpositive
  · intro hdone hlost
    rcases kept_iff.mp hlost with hone | ⟨_, e, he, hholds⟩
    · simp [World.receiptDone, hone] at hdone
    · obtain ⟨n, packet, hreceiver, hevent, hlive⟩ := holds_spec hholds
      exact ⟨e, he, n, packet, hreceiver, hlive, hevent⟩

/-- A send that broke off with its connection stays unwritten. -/
theorem broken_send_unwritten :
    ∃ w, Reachable World.step (fun w a => keepsOneLive w a = true) (.init ⟨60, true⟩ .V4) w ∧
      w.receiptLost 0 = true ∧ ∀ w', Reachable World.step free w w' →
        w'.receipts[0]? = some 0 ∧
        ∀ sender packet, ¬ Wrote (.init ⟨60, true⟩ .V4) sender packet 0 w' := by
  obtain ⟨w, h, hknown, hlost⟩ :
      ∃ w, Reachable World.step (fun w a => keepsOneLive w a = true) (.init ⟨60, true⟩ .V4) w ∧
        (0 < w.receipts.length ∧ w.receiptLost 0 = true) :=
    exists_of_guardedRun
      [.hub (.connect 0), .network 0 (.connected false), .hub (.connecting 0), .hub .load,
        .hub .resend, .request (.PublishQoS1 (.init .AtLeastOnce "a" [] false .V4 7)),
        .hub (.recv 1), .task 0 .run, .network 0 (.readErr "read 0 byte from network")]
      (by decide +kernel)
  exact ⟨w, h, hlost, (send_outcomes_exact h hknown).2.1 hlost⟩

end Writes
