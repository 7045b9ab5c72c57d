import ForMqttClient.PacketIds
import ForMqttClient.TaskRuns

/-!
# Requests without a sender task

A sender task dies when its data is dropped unwritten, and only the resend loop
of the next connect replaces it. While at most one `TaskNetwork` is live, a
receipt has one copy of its data, so no task that was started since the hub
connected dies before that `TaskNetwork` does.
-/

namespace Orphans

open MqttData TaskHub HubSteps Tasks System SystemSteps TaskRuns PacketIds GuardedRuns

/-- At most one `TaskNetwork` is live. -/
def OneLive (w : World) : Prop :=
  ∀ m < w.networks.length, ∀ n < w.networks.length,
    w.networkLive m = true → w.networkLive n = true → m = n

instance (w : World) : Decidable (OneLive w) :=
  inferInstanceAs (Decidable (∀ m < w.networks.length, ∀ n < w.networks.length, _ → _ → _))

/-- After the action at most one `TaskNetwork` is live. -/
def keepsOneLive (w : World) (action : Action) : Bool :=
  (w.step action).all (fun w' => decide (OneLive w'))

theorem lt_of_networkLive {w : World} {n : Nat} (h : w.networkLive n = true) :
    n < w.networks.length := by
  by_contra hn
  have hnone : w.networks[n]? = none := List.getElem?_eq_none (by omega)
  simp [World.networkLive, hnone] at h

/-! ## Receipts -/

/-- The envelope carries the data of the receipt. -/
def carries (receipt : Nat) (envelope : Envelope) : Bool :=
  match envelope.event with
  | .data _ r => r == receipt
  | _ => false

/-- How often a receipt was signalled or still can be. -/
def signals (w : World) (receipt : Nat) : Nat :=
  w.bus.countP (carries receipt) + w.receipts.getD receipt 0

/-- No receipt is signalled twice, and only receipts that were given out travel. -/
structure Signals (w : World) : Prop where
  once : ∀ receipt, signals w receipt ≤ 1
  known : ∀ receipt, w.receipts.length ≤ receipt → w.bus.countP (carries receipt) = 0

section Receipts

variable {w w' : World} {action : Action}

/-- A step that hands out no receipt and copies no data. -/
theorem Signals.carry (hI : Signals w) (hreceipts : w'.receipts = w.receipts)
    (hbus : ∀ receipt, w'.bus.countP (carries receipt) ≤ w.bus.countP (carries receipt)) :
    Signals w' := by
  constructor
  · intro receipt
    have before := hI.once receipt
    have fewer := hbus receipt
    rw [signals, hreceipts]
    unfold signals at before
    omega
  · intro receipt hlength
    rw [hreceipts] at hlength
    have before := hI.known receipt hlength
    have fewer := hbus receipt
    omega

theorem Signals.keep (hI : Signals w) (hreceipts : w'.receipts = w.receipts)
    (hbus : w'.bus = w.bus) : Signals w' :=
  hI.carry hreceipts (fun receipt => Nat.le_of_eq (congrArg (List.countP (carries receipt)) hbus))

theorem Signals.record (hI : Signals w) (event : Event) : Signals (w.record event) :=
  hI.keep rfl rfl

theorem countP_dispatch {sender : Worker} {event : BusEvent} {message : Nat} (receipt : Nat)
    (hevent : ∀ packet r, event ≠ .data packet r) :
    (w.dispatch sender event message).bus.countP (carries receipt) =
      w.bus.countP (carries receipt) := by
  have nothing : ((w.subscribers event).map
      (fun receiver => Envelope.mk sender receiver event message)).countP (carries receipt) = 0 := by
    rw [List.countP_eq_zero]
    intro e he
    obtain ⟨receiver, _, rfl⟩ := List.mem_map.mp he
    cases event with
    | data packet r => exact absurd rfl (hevent packet r)
    | _ => simp [carries]
  rw [World.dispatch, List.countP_append, nothing]
  rfl

theorem Signals.dispatch (hI : Signals w) {sender : Worker} {event : BusEvent} {message : Nat}
    (hevent : ∀ packet r, event ≠ .data packet r) : Signals (w.dispatch sender event message) :=
  hI.carry rfl (fun receipt => Nat.le_of_eq (countP_dispatch receipt hevent))

theorem countP_rest {j : Nat} {envelope : Envelope} {rest : List Envelope} (receipt : Nat)
    (htake : PairFifo.take Envelope.channel w.bus j = some (envelope, rest)) :
    w.bus.countP (carries receipt) =
      rest.countP (carries receipt) + if carries receipt envelope then 1 else 0 := by
  rw [(PairFifo.perm_of_take htake).countP_eq, List.countP_cons]

theorem Signals.rest (hI : Signals w) {j : Nat} {envelope : Envelope} {rest : List Envelope}
    (htake : PairFifo.take Envelope.channel w.bus j = some (envelope, rest)) :
    Signals { w with bus := rest } := by
  refine hI.carry rfl ?_
  intro receipt
  have := countP_rest receipt htake
  have bus : ({ w with bus := rest } : World).bus = rest := rfl
  rw [bus]
  omega

theorem length_le_one {l : List Nat} (hnodup : l.Nodup) (hsame : ∀ m ∈ l, ∀ n ∈ l, m = n) :
    l.length ≤ 1 := by
  cases l with
  | nil => exact Nat.zero_le 1
  | cons m rest =>
    cases rest with
    | nil => exact Nat.le_refl 1
    | cons n rest =>
      have heq : m = n := hsame m (by simp) n (by simp)
      simp [heq] at hnodup

/-- The live `TaskNetwork`s, each of which gets a copy of the data, are at most one. -/
theorem copies_le (hone : OneLive w) :
    ((List.range w.networks.length).filter w.networkLive).length ≤ 1 := by
  refine length_le_one (List.nodup_range.filter _) ?_
  intro m hm n hn
  obtain ⟨hm, hm'⟩ := List.mem_filter.mp hm
  obtain ⟨hn, hn'⟩ := List.mem_filter.mp hn
  exact hone m (List.mem_range.mp hm) n (List.mem_range.mp hn) hm' hn'

theorem countP_send (hone : OneLive w) (sender : Worker) (packet : Outgoing) (receipt : Nat) :
    (w.send sender packet).bus.countP (carries receipt) ≤
      w.bus.countP (carries receipt) + if receipt = w.receipts.length then 1 else 0 := by
  have copies := copies_le hone
  have bus : (w.send sender packet).bus = w.bus ++
      ((List.range w.networks.length).filter w.networkLive).map (fun n =>
        Envelope.mk sender (.network n) (.data packet w.receipts.length) 0) :=
    congrArg (w.bus ++ ·) List.map_map
  rw [bus, List.countP_append]
  by_cases hr : receipt = w.receipts.length
  · have all := List.countP_le_length (p := carries receipt)
      (l := ((List.range w.networks.length).filter w.networkLive).map (fun n =>
        Envelope.mk sender (.network n) (.data packet w.receipts.length) 0))
    rw [List.length_map] at all
    rw [if_pos hr]
    omega
  · have none : (((List.range w.networks.length).filter w.networkLive).map (fun n =>
        Envelope.mk sender (.network n) (.data packet w.receipts.length) 0)).countP
          (carries receipt) = 0 := by
      rw [List.countP_eq_zero]
      intro e he
      obtain ⟨n, _, rfl⟩ := List.mem_map.mp he
      simpa [carries] using Ne.symm hr
    omega

theorem Signals.send (hI : Signals w) (hone : OneLive w) (sender : Worker) (packet : Outgoing) :
    Signals (w.send sender packet) := by
  have receipts : (w.send sender packet).receipts = w.receipts ++ [0] := rfl
  constructor
  · intro receipt
    have more := countP_send hone sender packet receipt
    have before := hI.once receipt
    unfold signals at before ⊢
    rw [receipts]
    by_cases hr : receipt = w.receipts.length
    · have fresh := hI.known receipt (Nat.le_of_eq hr.symm)
      rw [if_pos hr, fresh] at more
      have zero : (w.receipts ++ [0]).getD receipt 0 = 0 := by
        rw [hr]
        simp [List.getD]
      omega
    · rw [if_neg hr] at more
      have same : (w.receipts ++ [0]).getD receipt 0 = w.receipts.getD receipt 0 := by
        rw [List.getD, List.getD]
        by_cases hlt : receipt < w.receipts.length
        · rw [List.getElem?_append_left hlt]
        · rw [List.getElem?_eq_none (by simp; omega), List.getElem?_eq_none (by omega)]
      omega
  · intro receipt hlength
    rw [receipts, List.length_append] at hlength
    have more := countP_send hone sender packet receipt
    have fresh := hI.known receipt (by omega)
    rw [if_neg (by simp at hlength; omega), fresh] at more
    omega

/-- A write takes the envelope and signals its receipt. -/
theorem Signals.write (hI : Signals w) {j receipt message : Nat} {sender receiver : Worker}
    {packet : Outgoing} {rest : List Envelope}
    (htake : PairFifo.take Envelope.channel w.bus j =
      some (⟨sender, receiver, .data packet receipt, message⟩, rest)) :
    Signals { w with bus := rest, receipts := w.receipts.modify receipt (· + 1) } := by
  have counts (r : Nat) := countP_rest r htake
  constructor
  · intro r
    have before := hI.once r
    have count := counts r
    have bus : ({ w with bus := rest, receipts := w.receipts.modify receipt (· + 1) } : World).bus =
      rest := rfl
    have receipts : ({ w with bus := rest, receipts := w.receipts.modify receipt (· + 1) } : World).receipts =
      w.receipts.modify receipt (· + 1) := rfl
    unfold signals at before ⊢
    rw [bus, receipts]
    by_cases hr : receipt = r
    · subst hr
      have signalled : (w.receipts.modify receipt (· + 1)).getD receipt 0 ≤
          w.receipts.getD receipt 0 + 1 := by
        rw [List.getD, List.getD, List.getElem?_modify_eq]
        cases w.receipts[receipt]? <;> simp
      simp only [carries, beq_self_eq_true, if_true] at count
      omega
    · have same : (w.receipts.modify receipt (· + 1)).getD r 0 = w.receipts.getD r 0 := by
        simp [List.getD, hr]
      omega
  · intro r hlength
    rw [List.length_modify] at hlength
    have before := hI.known r hlength
    have count := counts r
    have bus : ({ w with bus := rest, receipts := w.receipts.modify receipt (· + 1) } : World).bus =
      rest := rfl
    rw [bus]
    omega

theorem applyOutputs_receipts (w : World) (message : Nat) (outputs : List Output) :
    (World.applyOutputs message w outputs).receipts = w.receipts := by
  induction outputs generalizing w with
  | nil => rfl
  | cons output rest ih =>
    refine (ih (World.applyOutput message w output)).trans ?_
    cases output <;> rfl

theorem applyOutputs_signals (hI : Signals w) (message : Nat) (outputs : List Output) :
    Signals (World.applyOutputs message w outputs) := by
  induction outputs generalizing w with
  | nil => exact hI
  | cons output rest ih =>
    apply ih
    cases output with
    | dispatch event => exact (hI.record (.user event)).dispatch (by simp)
    | disconnect => exact hI.dispatch (by simp)
    | _ => exact hI.carry rfl (fun _ => Nat.le_refl _)

theorem signals_of_hub (hI : Signals w) {a : HubAction} (h : HubMoved w a w') : Signals w' := by
  cases h with
  | @intro input message taken hub outputs htakes hmove =>
    apply applyOutputs_signals
    have before : Signals taken := by
      cases htakes with
      | connecting htake => exact hI.rest htake
      | command htake => exact hI.rest htake
      | network htake => exact hI.rest htake
      | clientData htake => exact (hI.rest htake).carry rfl (fun _ => Nat.le_refl _)
      | hubMsg htake => exact (hI.rest htake).carry rfl (fun _ => Nat.le_refl _)
      | _ => exact hI
    exact before.carry rfl (fun _ => Nat.le_refl _)

theorem signals_of_network (hI : Signals w) {n : Nat} {network : Network} {a : NetworkAction}
    (h : NetworkMoved w n network a w') : Signals w' := by
  cases h with
  | @connected sessionPresent hstate =>
    exact Signals.keep (hI.dispatch (by simp)) rfl rfl
  | connectFail hstate => exact Signals.keep (hI.dispatch (by simp)) rfl rfl
  | @read packet message rest hstate hfrom =>
    have set : Signals (w.setNetwork n { network with fromBroker := rest }) := hI.keep rfl rfl
    cases packet with
    | ConnAck => exact set
    | _ => exact set.dispatch (by simp)
  | readErr hstate => exact Signals.keep (hI.dispatch (by simp)) rfl rfl
  | takeDisconnect hstate htake => exact Signals.keep (hI.rest htake) rfl rfl
  | write hstate htake => exact Signals.keep (hI.write htake) rfl rfl
  | writeErr hstate htake => exact Signals.keep ((hI.rest htake).dispatch (by simp)) rfl rfl
  | writeDisconnect hstate => exact hI.keep rfl rfl
  | writeDisconnectErr hstate => exact Signals.keep (hI.dispatch (by simp)) rfl rfl

theorem signals_of_moved (hone : OneLive w) (hI : Signals w) (h : Moved w action w') :
    Signals w' := by
  cases h with
  | request => exact hI.dispatch (by simp)
  | command => exact hI.dispatch (by simp)
  | hub h => exact signals_of_hub hI h
  | task hget h =>
    cases h with
    | sendFirst hphase hprog => exact Signals.keep (hI.send hone _ _) rfl rfl
    | sendOnly hphase hprog => exact Signals.keep (hI.send hone _ _) rfl rfl
    | sendAgain hphase hprog => exact Signals.keep (hI.send hone _ _) rfl rfl
    | dispatch hphase hprog => exact Signals.keep (hI.dispatch (by simp)) rfl rfl
    | txToUser hphase hprog => exact Signals.keep ((hI.record _).dispatch (by simp)) rfl rfl
    | transmitted hphase hprog hdone => exact hI.keep rfl rfl
    | sent hphase hprog hdone => exact hI.keep rfl rfl
    | died hphase hlost => exact hI.keep rfl rfl
    | acked hphase hprog htake hrel => exact Signals.keep (hI.rest htake) rfl rfl
    | skipped hphase hprog htake hrel => exact hI.rest htake
  | ping hget h =>
    cases h with
    | send => exact Signals.keep (hI.send hone _ _) rfl rfl
    | recv htake hreceiver => exact Signals.keep (hI.rest htake) rfl rfl
    | failing => exact Signals.keep (hI.dispatch (by simp)) rfl rfl
    | finalFail => exact Signals.keep (hI.dispatch (by simp)) rfl rfl
    | succeed => exact Signals.keep (hI.dispatch (by simp)) rfl rfl
    | _ => exact hI.keep rfl rfl
  | timer hget => exact Signals.keep (hI.dispatch (by simp)) rfl rfl
  | network hget h => exact signals_of_network hI h
  | brokerRecv hget hto => exact hI.keep rfl rfl
  | brokerSend hget => exact hI.keep rfl rfl

/-- The receipt was signalled once, or a live `TaskNetwork` still has the data. -/
theorem kept_iff {receipt : Nat} : w.receiptLost receipt = false ↔
    w.receipts[receipt]? = some 1 ∨
      w.receipts[receipt]? = some 0 ∧ ∃ e ∈ w.bus, w.holdsReceipt receipt e = true := by
  unfold World.receiptLost
  split
  · next h => simp [h, List.any_eq_true]
  · next h => simp [h]
  · next h0 h1 =>
    constructor
    · rintro ⟨⟩
    · rintro (h | ⟨h, _⟩)
      · exact absurd h h1
      · exact absurd h h0

theorem holds_spec {receipt : Nat} {e : Envelope} (h : w.holdsReceipt receipt e = true) :
    ∃ n packet, e.receiver = .network n ∧ e.event = .data packet receipt ∧
      w.networkLive n = true := by
  unfold World.holdsReceipt at h
  split at h
  · next n packet r hreceiver hevent =>
    obtain ⟨hr, hlive⟩ := (Bool.and_eq_true _ _).mp h
    rw [beq_iff_eq] at hr
    exact ⟨n, packet, hreceiver, hr ▸ hevent, hlive⟩
  · cases h

theorem holds_of_data {receipt n : Nat} {e : Envelope} {packet : Outgoing}
    (hreceiver : e.receiver = .network n) (hevent : e.event = .data packet receipt)
    (hlive : w.networkLive n = true) : w.holdsReceipt receipt e = true := by
  simp [World.holdsReceipt, hreceiver, hevent, hlive]

/-- A receipt that was given out changes only by a write of its data. -/
theorem receipt_of_moved (h : Moved w action w') {receipt count : Nat}
    (hcount : w.receipts[receipt]? = some count) :
    w'.receipts[receipt]? = some count ∨
      w'.receipts[receipt]? = some (count + 1) ∧ 0 < w.bus.countP (carries receipt) := by
  have appended (more : List Nat) : (w.receipts ++ more)[receipt]? = some count := by
    rw [List.getElem?_append_left (List.getElem?_eq_some_iff.mp hcount).1, hcount]
  cases h with
  | hub h =>
    cases h with
    | @intro input message taken hub outputs htakes hmove =>
      have before : taken.receipts = w.receipts := by cases htakes <;> rfl
      have after : (World.applyOutputs message { taken with hub := hub } outputs).receipts =
          taken.receipts := applyOutputs_receipts _ message outputs
      rw [after, before]
      exact .inl hcount
  | task hget h =>
    cases h with
    | sendFirst hphase hprog => exact .inl (appended [0])
    | sendOnly hphase hprog => exact .inl (appended [0])
    | sendAgain hphase hprog => exact .inl (appended [0])
    | _ => exact .inl hcount
  | ping hget h =>
    cases h with
    | send => exact .inl (appended [0])
    | _ => exact .inl hcount
  | network hget h =>
    cases h with
    | @write j sender packet r message rest hstate htake =>
      by_cases hr : r = receipt
      · subst hr
        refine .inr ⟨?_, ?_⟩
        · have modified : (w.receipts.modify r (· + 1))[r]? = some (count + 1) := by
            rw [List.getElem?_modify_eq, hcount]
            rfl
          exact modified
        · rw [List.countP_pos_iff]
          exact ⟨_, PairFifo.mem_of_take htake, by simp [carries]⟩
      · left
        have modified : (w.receipts.modify r (· + 1))[receipt]? = some count := by
          simp [hr, hcount]
        exact modified
    | @read packet => cases packet <;> exact .inl hcount
    | _ => exact .inl hcount
  | _ => exact .inl hcount

/-- Who acts as a `TaskNetwork` was live. -/
theorem live_of_networkMoved {n : Nat} {network : Network} {a : NetworkAction}
    (h : NetworkMoved w n network a w') : network.live = true := by
  cases h with
  | connected hstate => simp [Network.live, hstate]
  | connectFail hstate => simp [Network.live, hstate]
  | read hstate _ => simp [Network.live, hstate]
  | readErr hstate => simp [Network.live, hstate]
  | takeDisconnect hstate _ => simp [Network.live, hstate]
  | write hstate _ => simp [Network.live, hstate]
  | writeErr hstate _ => simp [Network.live, hstate]
  | writeDisconnect hstate => simp [Network.live, hstate]
  | writeDisconnectErr hstate => simp [Network.live, hstate]

/-- An action of one `TaskNetwork` or of its broker leaves the others as they are. -/
theorem networks_of_network {n : Nat} {network : Network} {a : NetworkAction}
    (h : NetworkMoved w n network a w') : ∃ network', w'.networks = w.networks.set n network' := by
  cases h with
  | @read packet message rest hstate hfrom => cases packet <;> exact ⟨_, rfl⟩
  | _ => exact ⟨_, rfl⟩

theorem networkLive_iff {n : Nat} : w.networkLive n = true ↔
    ∃ network, w.networks[n]? = some network ∧ network.live = true := by
  unfold World.networkLive
  cases w.networks[n]? <;> simp

theorem live_of_set {m n : Nat} {network network' : Network} (hget : w.networks[m]? = some network)
    (hset : w'.networks = w.networks.set m network') (hlive : w'.networkLive n = true) :
    m = n ∧ network'.live = true ∨ m ≠ n ∧ w'.networks[n]? = w.networks[n]? := by
  by_cases hm : m = n
  · subst hm
    rw [World.networkLive, hset, List.getElem?_set_self (List.getElem?_eq_some_iff.mp hget).1]
      at hlive
    exact .inl ⟨rfl, hlive⟩
  · exact .inr ⟨hm, by rw [hset, List.getElem?_set_ne hm]⟩

/-- A `TaskNetwork` never comes back to life. -/
theorem live_before (h : Moved w action w') {n : Nat} (hn : n < w.networks.length)
    (hlive : w'.networkLive n = true) : w.networkLive n = true := by
  have same (hnetworks : w'.networks[n]? = w.networks[n]?) : w.networkLive n = true := by
    rw [World.networkLive, hnetworks] at hlive
    exact hlive
  cases h with
  | hub h =>
    cases h with
    | @intro input message taken hub outputs htakes hmove =>
      have before : taken.networks = w.networks := by cases htakes <;> rfl
      obtain ⟨more, hmore⟩ := (applyOutputs_grown { taken with hub := hub } message outputs).networks
      apply same
      rw [← hmore]
      have hn' : n < taken.networks.length := before ▸ hn
      exact (List.getElem?_append_left hn').trans (congrArg (·[n]?) before)
  | task hget h => cases h <;> exact hlive
  | ping hget h => cases h <;> exact hlive
  | @network m network a w' hget h =>
    by_cases hm : m = n
    · subst hm
      exact networkLive_iff.mpr ⟨network, hget, live_of_networkMoved h⟩
    · obtain ⟨network', hset⟩ := networks_of_network h
      apply same
      rw [hset, List.getElem?_set_ne hm]
  | brokerRecv hget hto =>
    rcases live_of_set hget rfl hlive with ⟨rfl, hlive'⟩ | ⟨_, hsame⟩
    · exact networkLive_iff.mpr ⟨_, hget, hlive'⟩
    · exact same hsame
  | brokerSend hget =>
    rcases live_of_set hget rfl hlive with ⟨rfl, hlive'⟩ | ⟨_, hsame⟩
    · exact networkLive_iff.mpr ⟨_, hget, hlive'⟩
    · exact same hsame
  | _ => exact hlive

/-- While the only live `TaskNetwork` stays live, no receipt is lost. -/
theorem kept_of_moved (hone : OneLive w) (hsignals : Signals w) (h : Moved w action w')
    {n receipt : Nat} (hn : n < w.networks.length) (hlive : w'.networkLive n = true)
    (hkept : w.receiptLost receipt = false) : w'.receiptLost receipt = false := by
  rcases kept_iff.mp hkept with hdone | ⟨hzero, e, he, hholds⟩
  · rcases receipt_of_moved h hdone with hsame | ⟨_, hpos⟩
    · exact kept_iff.mpr (.inl hsame)
    · have once := hsignals.once receipt
      unfold signals at once
      have : w.receipts.getD receipt 0 = 1 := by simp [List.getD, hdone]
      omega
  · obtain ⟨m, packet, hreceiver, hevent, hlive'⟩ := holds_spec hholds
    obtain rfl : m = n := hone m (lt_of_networkLive hlive') n hn hlive' (live_before h hn hlive)
    rcases receipt_of_moved h hzero with hsame | ⟨hone', _⟩
    · rcases mem_bus_or_taken h he with hmem | ⟨j, rest, htaking, htake⟩
      · exact kept_iff.mpr (.inr ⟨hsame, e, hmem, holds_of_data hreceiver hevent hlive⟩)
      · obtain ⟨sender, receiver, event, message⟩ := e
        cases hreceiver
        cases hevent
        cases htaking
        cases h with
        | network hget h =>
          cases h with
          | takeDisconnect hstate htake' => cases htake.symm.trans htake'
          | write hstate htake' =>
            cases htake.symm.trans htake'
            have signalled : (w.receipts.modify receipt (· + 1))[receipt]? = some 1 := by
              rw [List.getElem?_modify_eq, hzero]
              rfl
            cases signalled.symm.trans hsame
          | writeErr hstate htake' =>
            rcases live_of_set hget rfl hlive with ⟨_, hended⟩ | ⟨hne, _⟩
            · cases hended
            · exact absurd rfl hne
    · exact kept_iff.mpr (.inl hone')

end Receipts

/-! ## Owners of entries -/

/-- Task `i` works for the entry: it has a `RecoverId` to come, and the data
that it waits on is not lost. -/
structure Owner (w : World) (i : Nat) (entry : UnacknowledgedClientData) : Prop where
  started : ∃ task, w.tasks[i]? = some task ∧ task.spec = entry.toAcknowledge ∧
    ∀ receipt, task.phase = .sending receipt → w.receiptLost receipt = false
  due : .RecoverId entry.packetId ∈ pending w i

section Owners

variable {w w' : World} {action : Action} {i : Nat} {entry : UnacknowledgedClientData}

theorem recoverId_mem_run (entry : UnacknowledgedClientData) :
    .RecoverId entry.packetId ∈ toDispatch entry.toAcknowledge.run := by
  cases entry <;> exact List.mem_cons_self

/-- A task that was just started for the entry. -/
theorem owner_of_started (hget : w.tasks[i]? = some (.init entry.toAcknowledge)) :
    Owner w i entry := by
  constructor
  · refine ⟨_, hget, rfl, ?_⟩
    rintro receipt ⟨⟩
  · rw [pending_eq hget]
    exact List.mem_append_right _ (recoverId_mem_run entry)

/-- What a send puts on its way is not lost while there is a live `TaskNetwork`. -/
theorem kept_of_send {n : Nat} (hlive : w.networkLive n = true) (sender : Worker)
    (packet : Outgoing) : (w.send sender packet).receiptLost w.receipts.length = false := by
  have fresh : (w.receipts ++ [0])[w.receipts.length]? = some 0 := by simp
  refine kept_iff.mpr (.inr ⟨fresh, ?_⟩)
  have hmem : Worker.network n ∈ w.subscribers (.data packet w.receipts.length) :=
    mem_subscribers_data.mpr ⟨n, ⟨lt_of_networkLive hlive, hlive⟩, rfl⟩
  refine ⟨⟨sender, .network n, .data packet w.receipts.length, 0⟩, ?_, ?_⟩
  · exact List.mem_append_right _ (List.mem_map_of_mem hmem)
  · exact holds_of_data rfl rfl hlive

theorem owner_of_taskMoved {task : Tasks.Task} {a : TaskAction} {n : Nat}
    (hlive : w.networkLive n = true) (hget : w.tasks[i]? = some task)
    (h : TaskMoved w i task a w') (hI : Owner w i entry) : Owner w' i entry := by
  obtain ⟨⟨before, hbefore, hspec, hkept⟩, hdue⟩ := hI
  cases hget.symm.trans hbefore
  have hlt := (List.getElem?_eq_some_iff.mp hget).1
  have due : .RecoverId entry.packetId ∈ pending w' i := by
    rcases pending_of_taskMoved hget h with hsame | ⟨receipt, rfl, hphase, _⟩
    · rwa [hsame]
    · cases h with
      | died hphase' hlost =>
        have := hkept _ hphase'
        rw [hlost] at this
        cases this
  have next {after : Tasks.Task} (htasks : w'.tasks = w.tasks.set i after)
      (hsame : after.spec = task.spec)
      (hphase : ∀ receipt, after.phase = .sending receipt → w'.receiptLost receipt = false) :
      Owner w' i entry := by
    refine ⟨⟨after, ?_, hsame.trans hspec, hphase⟩, due⟩
    rw [htasks, List.getElem?_set_self hlt]
  cases h with
  | sendFirst hphase hprog =>
    refine next rfl rfl ?_
    rintro receipt ⟨⟩
    exact kept_of_send hlive _ _
  | sendOnly hphase hprog =>
    refine next rfl rfl ?_
    rintro receipt ⟨⟩
    exact kept_of_send hlive _ _
  | sendAgain hphase hprog =>
    refine next rfl rfl ?_
    rintro receipt ⟨⟩
    exact kept_of_send hlive _ _
  | dispatch hphase hprog =>
    refine next rfl rfl ?_
    intro receipt hsending
    cases hphase.symm.trans hsending
  | txToUser hphase hprog =>
    refine next rfl rfl ?_
    intro receipt hsending
    cases hphase.symm.trans hsending
  | transmitted hphase hprog hdone => exact next rfl rfl (by rintro receipt ⟨⟩)
  | sent hphase hprog hdone => exact next rfl rfl (by rintro receipt ⟨⟩)
  | died hphase hlost => exact next rfl rfl (by rintro receipt ⟨⟩)
  | acked hphase hprog htake hrel => exact next rfl rfl (by rintro receipt ⟨⟩)
  | skipped hphase hprog htake hrel =>
    refine ⟨⟨task, hget, hspec, ?_⟩, due⟩
    intro receipt hsending
    cases hphase.symm.trans hsending

/-- An owner stays one while nobody takes its `RecoverId` and the `TaskNetwork` lives. -/
theorem owner_of_outside (hone : OneLive w) (hsignals : Signals w) (h : Moved w action w')
    (hhub : ∀ a, action ≠ .hub a) {n : Nat} (hn : n < w.networks.length)
    (hlive : w'.networkLive n = true) (hI : Owner w i entry) : Owner w' i entry := by
  by_cases htask : ∃ a, action = .task i a
  · obtain ⟨a, rfl⟩ := htask
    have hlive' := live_before h hn hlive
    cases h with
    | task hget hmoved => exact owner_of_taskMoved hlive' hget hmoved hI
  · have hother : ∀ a, action ≠ .task i a := fun a ha => htask ⟨a, ha⟩
    obtain ⟨⟨task, hget, hspec, hkept⟩, hdue⟩ := hI
    constructor
    · refine ⟨task, (task_of_other h hhub hother).trans hget, hspec, ?_⟩
      intro receipt hphase
      exact kept_of_moved hone hsignals h hn hlive (hkept receipt hphase)
    · rwa [pending_of_other h hhub hother]

theorem owner_of_hub (hone : OneLive w) (hsignals : Signals w) {a : HubAction}
    (h : HubMoved w a w') (htaken : .RecoverId entry.packetId ∉ takenFrom w i a) {n : Nat}
    (hn : n < w.networks.length) (hlive : w'.networkLive n = true) (hI : Owner w i entry) :
    Owner w' i entry := by
  obtain ⟨⟨task, hget, hspec, hkept⟩, hdue⟩ := hI
  have hlt := (List.getElem?_eq_some_iff.mp hget).1
  obtain ⟨specs, htasks⟩ := tasks_of_hub h
  constructor
  · refine ⟨task, ?_, hspec, ?_⟩
    · rw [htasks, List.getElem?_append_left hlt, hget]
    · intro receipt hphase
      exact kept_of_moved hone hsignals (.hub h) hn hlive (hkept receipt hphase)
  · rw [pending_of_hub h hlt] at hdue
    rcases List.mem_append.mp hdue with hmem | hmem
    · exact absurd hmem htaken
    · exact hmem

end Owners

/-- While the hub is connected and the `TaskNetwork` that it started last is
live, every entry that the resend loop has passed has an owner. -/
def Watched (w : World) : Prop :=
  w.hub.state = .Connected → w.networkLive (w.networks.length - 1) = true →
    ∀ index entry, w.hub.clientData[index]? = some entry →
      (∀ next, w.hub.position = .resending next → index < next) → ∃ i, Owner w i entry

section Runs

variable {w w' : World} {action : Action}

theorem watched_of_outside (hone : OneLive w) (hsignals : Signals w) (h : Moved w action w')
    (hhub : ∀ a, action ≠ .hub a) (hI : Watched w) : Watched w' := by
  intro hconnected hlive index entry hentry hpassed
  rw [(hub_of_moved h hhub).1] at hconnected hentry hpassed
  rw [networks_length_of_moved h hhub] at hlive
  have hn : w.networks.length - 1 < w.networks.length := by
    have := lt_of_networkLive hlive
    rwa [networks_length_of_moved h hhub] at this
  obtain ⟨i, howner⟩ := hI hconnected (live_before h hn hlive) index entry hentry hpassed
  exact ⟨i, owner_of_outside hone hsignals h hhub hn hlive howner⟩

theorem kept_of_accept {entries : List UnacknowledgedClientData}
    {entry added : UnacknowledgedClientData} {index : Nat}
    (h : (entries ++ [added])[index]? = some entry) :
    entries[index]? = some entry ∨ entry = added := by
  by_cases hlt : index < entries.length
  · rw [List.getElem?_append_left hlt] at h
    exact .inl h
  · rw [List.getElem?_append_right (by omega)] at h
    exact .inr (List.mem_singleton.mp (List.mem_of_getElem? h))

/-- The entries that a completion leaves have other ids. -/
theorem kept_of_recoverDone {hub : Hub} (hids : IdsConserved hub) {packetId : PacketId}
    {found index : Nat} {obj entry : UnacknowledgedClientData}
    (hfind : hub.clientData.findIdx? (fun obj => obj.packetId = packetId) = some found)
    (hobj : hub.clientData[found]? = some obj)
    (h : (hub.clientData.eraseIdx found)[index]? = some entry) :
    ∃ k : Nat, hub.clientData[k]? = some entry ∧ packetId ≠ entry.packetId := by
  rw [List.getElem?_eraseIdx] at h
  obtain ⟨k, hk, hne⟩ : ∃ k : Nat, hub.clientData[k]? = some entry ∧ k ≠ found := by
    split at h
    · exact ⟨index, h, by omega⟩
    · exact ⟨index + 1, h, by omega⟩
  refine ⟨k, hk, ?_⟩
  rintro rfl
  exact hne (index_unique hids hk hobj (found_packetId hfind hobj).symm)

/-- So have those that the release of a publish leaves as they are. -/
theorem kept_of_recoverRel {hub : Hub} (hids : IdsConserved hub) {packetId : PacketId}
    {found index : Nat} {obj next entry : UnacknowledgedClientData}
    (hfind : hub.clientData.findIdx? (fun obj => obj.packetId = packetId) = some found)
    (hobj : hub.clientData[found]? = some obj)
    (h : (hub.clientData.set found next)[index]? = some entry) :
    entry = next ∨ hub.clientData[index]? = some entry ∧ packetId ≠ entry.packetId := by
  by_cases heq : found = index
  · subst heq
    rw [List.getElem?_set_self (List.getElem?_eq_some_iff.mp hobj).1] at h
    exact .inl (Option.some.inj h).symm
  · rw [List.getElem?_set_ne heq] at h
    refine .inr ⟨h, ?_⟩
    rintro rfl
    exact heq (index_unique hids hobj h (found_packetId hfind hobj))

/-- A turn of the resend loop starts the task of the entry that it passes. -/
theorem passed_of_resendEntry {hub : Hub} {next index : Nat}
    {passed entry : UnacknowledgedClientData} (hat : At hub .Connected (.resending next))
    (hpassed : hub.clientData[next]? = some passed) (hentry : hub.clientData[index]? = some entry)
    (hlt : index < next + 1) :
    (∀ n, hub.position = .resending n → index < n) ∨ entry = passed := by
  by_cases heq : index = next
  · subst heq
    exact .inr (Option.some.inj (hentry.symm.trans hpassed))
  · left
    intro n hn
    cases hat.position.symm.trans hn
    omega

/-- The entry that the hub holds after a step was there before under an index
that the resend loop had passed, and was not the one to be recovered, or a task
was started for it. -/
theorem entry_before (hids : IdsConserved w.hub) {input : HubInput} {hub : Hub}
    {outputs : List Output} (h : Move w.keepAliveId w.hub input hub outputs)
    (hconnected : hub.state = .Connected) {index : Nat} {entry : UnacknowledgedClientData}
    (hentry : hub.clientData[index]? = some entry)
    (hpassed : ∀ next, hub.position = .resending next → index < next) :
    (w.hub.state = .Connected ∧ input ≠ .hubMsg (.RecoverId entry.packetId) ∧
      ∃ k, w.hub.clientData[k]? = some entry ∧
        ∀ next, w.hub.position = .resending next → k < next) ∨
      startedSpecs outputs = [entry.toAcknowledge] := by
  have still (hat : At w.hub .Connected .loop) {k : Nat}
      (hk : w.hub.clientData[k]? = some entry)
      (hinput : input ≠ .hubMsg (.RecoverId entry.packetId)) :
      (w.hub.state = .Connected ∧ input ≠ .hubMsg (.RecoverId entry.packetId) ∧
        ∃ k, w.hub.clientData[k]? = some entry ∧
          ∀ next, w.hub.position = .resending next → k < next) ∨
        startedSpecs outputs = [entry.toAcknowledge] := by
    refine .inl ⟨hat.state, hinput, k, hk, ?_⟩
    intro next hnext
    cases hat.position.symm.trans hnext
  cases h with
  | load hdraw => exact .inl ⟨hconnected, by simp, index, hentry, hpassed⟩
  | connected hat => exact absurd (hpassed 0 rfl) (by omega)
  | resendEntry hat hget =>
    rcases passed_of_resendEntry hat hget hentry (hpassed _ rfl) with hbefore | rfl
    · exact .inl ⟨hat.state, by simp, index, hentry, hbefore⟩
    · exact .inr rfl
  | resendEnd hat hnone =>
    refine .inl ⟨hat.state, by simp, index, hentry, ?_⟩
    intro next hnext
    cases hat.position.symm.trans hnext
    exact Nat.lt_of_lt_of_le (List.getElem?_eq_some_iff.mp hentry).1
      (List.getElem?_eq_none_iff.mp hnone)
  | accept hat hid hpop hfresh =>
    rcases kept_of_accept hentry with hold | rfl
    · exact still hat hold (by simp)
    · exact .inr rfl
  | recoverNone hat hnone =>
    refine still hat hentry ?_
    rintro ⟨⟩
    exact hnone entry (List.mem_of_getElem? hentry) rfl
  | recoverDone hat hfind hobj hdone hpush =>
    obtain ⟨k, hk, hother⟩ := kept_of_recoverDone hids hfind hobj hentry
    exact still hat hk (by simpa using hother)
  | recoverRel hat hfind hobj =>
    rcases kept_of_recoverRel hids hfind hobj hentry with rfl | ⟨hold, hother⟩
    · exact .inr rfl
    · exact still hat hold (by simpa using hother)
  | brokerDisconnect hat =>
    cases hauto : w.hub.options.autoReconnect <;> simp [hauto] at hconnected
  | disconnect hat hnext => rcases hnext with rfl | rfl <;> cases hconnected
  | _ =>
    -- the hub is not connected behind the branch, or stays in its loop with its entries
    first
    | cases hconnected
    | cases ‹At w.hub .ToConnect _›.state.symm.trans hconnected
    | exact still ‹At w.hub .Connected .loop› hentry (by simp)

theorem watched_of_hub (hone : OneLive w) (hsignals : Signals w) (hids : IdsConserved w.hub)
    {a : HubAction} (h : HubMoved w a w') (hI : Watched w) : Watched w' := by
  intro hconnected hlive index entry hentry hpassed
  have moved : Moved w (.hub a) w' := .hub h
  have hmoved := h
  cases h with
  | @intro input message taken hub outputs htakes hmove =>
    have grown := applyOutputs_grown { taken with hub := hub } message outputs
    rw [grown.hub] at hconnected hentry hpassed
    rcases entry_before hids hmove hconnected hentry hpassed with
      ⟨hstate, hinput, k, hk, hpassed'⟩ | hstarted
    · have same := (networks_of_hub hmoved).resolve_right (by
        rintro ⟨_, hat, _⟩
        cases hat.state.symm.trans hstate)
      rw [same] at hlive
      have hn : w.networks.length - 1 < w.networks.length := by
        have := lt_of_networkLive hlive
        rwa [same] at this
      obtain ⟨i, howner⟩ := hI hstate (live_before moved hn hlive) k entry hk hpassed'
      refine ⟨i, owner_of_hub hone hsignals hmoved ?_ hn hlive howner⟩
      exact fun htaken => hinput (input_of_takenFrom htakes htaken)
    · have htasks := tasks_of_takes htakes hub outputs
      refine ⟨w.tasks.length, owner_of_started ?_⟩
      rw [htasks, hstarted]
      simp

/-- What the run keeps: at most one live `TaskNetwork`, receipts with one copy
of their data, ids that name one entry, and owners. -/
structure Background (w : World) : Prop where
  one : OneLive w
  signals : Signals w
  ids : IdsConserved w.hub
  watched : Watched w

theorem background_of_moved (hone : OneLive w') (h : Moved w action w') (hI : Background w) :
    Background w' := by
  refine ⟨hone, signals_of_moved hI.one hI.signals h, ?_, ?_⟩
  · rcases hub_or_not h with ⟨a, rfl, hmoved⟩ | notHub
    · cases hmoved with
      | @intro input message taken hub outputs htakes hmove =>
        rw [(applyOutputs_grown { taken with hub := hub } message outputs).hub]
        exact (idMove_of_move hI.ids hmove).conserved hI.ids
    · rw [(hub_of_moved h notHub).1]
      exact hI.ids
  · rcases hub_or_not h with ⟨a, rfl, hmoved⟩ | notHub
    · exact watched_of_hub hI.one hI.signals hI.ids hmoved hI.watched
    · exact watched_of_outside hI.one hI.signals h notHub hI.watched

theorem reachable_background {options : MqttOptions} {protocol : Protocol}
    (h : Reachable World.step (fun w a => keepsOneLive w a = true) (.init options protocol) w) :
    Background w := by
  refine h.invariant ⟨?_, ⟨?_, ?_⟩, initial_conserved options protocol, ?_⟩ ?_
  · intro m hm
    cases hm
  · intro receipt
    simp [signals, World.init]
  · intro receipt _
    rfl
  · rintro ⟨⟩
  · intro w action w' _ ih hok hstep
    refine background_of_moved ?_ (moved_of_step hstep) ih
    simpa [keepsOneLive, hstep] using hok

end Runs

/-- The entry has a live task of the kind that `to_acknowledge` starts for it,
or a `RecoverId` for it is queued. -/
def Attended (w : World) (entry : UnacknowledgedClientData) : Prop :=
  (∃ task ∈ w.tasks, task.spec = entry.toAcknowledge ∧ task.live = true) ∨
    w.queued (.RecoverId entry.packetId)

instance (w : World) (entry : UnacknowledgedClientData) : Decidable (Attended w entry) :=
  inferInstanceAs (Decidable (_ ∨ _))

theorem attended_of_owner {w : World} {i : Nat} {entry : UnacknowledgedClientData}
    (h : Owner w i entry) : Attended w entry := by
  obtain ⟨⟨task, hget, hspec, _⟩, hdue⟩ := h
  rw [pending_eq hget] at hdue
  rcases List.mem_append.mp hdue with hqueued | hleft
  · obtain ⟨e, he, _, hreceiver, hevent⟩ := mem_queuedFrom.mp hqueued
    exact .inr ⟨e, he, hreceiver, hevent⟩
  · refine .inl ⟨task, List.mem_of_getElem? hget, hspec, ?_⟩
    cases hprog : task.prog with
    | nil =>
      rw [hprog] at hleft
      cases hleft
    | cons instr rest => simp [Task.live, hprog]

/-- In every run in which at most one `TaskNetwork` is live at a time: while the
hub is connected and its `TaskNetwork` lives, every entry that the resend loop
of this connect has passed, and after that loop every entry, is attended to. -/
theorem entries_attended {options : MqttOptions} {protocol : Protocol} {w : World}
    (h : Reachable World.step (fun w a => keepsOneLive w a = true) (.init options protocol) w)
    (hconnected : w.hub.state = .Connected)
    (hlive : w.networkLive (w.networks.length - 1) = true) :
    ∀ index entry, w.hub.clientData[index]? = some entry →
      (∀ next, w.hub.position = .resending next → index < next) → Attended w entry := by
  intro index entry hentry hpassed
  obtain ⟨i, howner⟩ := (reachable_background h).watched hconnected hlive index entry hentry hpassed
  exact attended_of_owner howner

/-- A request whose task dies with its connection, up to the next connect. -/
def orphaned : List Action :=
  [.hub (.connect 0), .network 0 (.connected false), .hub (.connecting 0), .hub .load,
    .hub .resend, .request (.PublishQoS1 (.init .AtLeastOnce "a" [] false .V4 7)), .hub (.recv 1),
    .task 0 .run, .network 0 (.readErr "read 0 byte from network"), .task 0 .receiptErr,
    .hub (.network 2), .hub .disconnect, .hub (.connect 0), .network 1 (.connected false),
    .hub (.connecting 3), .hub .load]

/-- Before the resend loop reaches it, the entry has neither task nor `RecoverId`,
though the hub is connected and no `NetworkEvent` waits. -/
theorem entry_waits_for_resend :
    ∃ w, Reachable World.step (fun w a => keepsOneLive w a = true) (.init ⟨60, true⟩ .V4) w ∧
      (w.hub.state = .Connected ∧ w.networkLive (w.networks.length - 1) = true ∧
        (∀ e ∈ w.bus, e.receiver ≠ .hubNetwork) ∧
        ∃ entry ∈ w.hub.clientData, ¬ Attended w entry) :=
  exists_of_guardedRun orphaned (by decide +kernel)

/-- The law once the loop has passed the entry. -/
theorem entries_attended_after_resend :
    ∃ w, Reachable World.step (fun w a => keepsOneLive w a = true) (.init ⟨60, true⟩ .V4) w ∧
      w.hub.clientData.length = 1 ∧ ∀ index entry, w.hub.clientData[index]? = some entry →
        (∀ next, w.hub.position = .resending next → index < next) → Attended w entry := by
  obtain ⟨w, h, hconnected, hlive, hlength⟩ :
      ∃ w, Reachable World.step (fun w a => keepsOneLive w a = true) (.init ⟨60, true⟩ .V4) w ∧
        (w.hub.state = .Connected ∧ w.networkLive (w.networks.length - 1) = true ∧
          w.hub.clientData.length = 1) :=
    exists_of_guardedRun (orphaned ++ [.hub .resend]) (by decide +kernel)
  exact ⟨w, h, hlength, entries_attended h hconnected hlive⟩

end Orphans
