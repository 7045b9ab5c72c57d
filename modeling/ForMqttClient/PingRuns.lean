import ForMqttClient.TaskRuns

/-!
# The life of a `TaskPing`

A `TaskPing` sends PINGREQ at most three times, takes eight steps at most and
can always take one until it has ended. What it has told the hub by then is one
`PingSuccess`, one `PingFail`, or two of them where all sends failed.
-/

namespace PingRuns

open MqttData TaskHub HubSteps Tasks System SystemSteps GuardedRuns

/-! ## What is left to do -/

/-- The steps that a `TaskPing` has left at most. -/
def stepsLeft : Ping → Nat
  | .send timeoutTime => 2 * timeoutTime + 2
  | .sending timeoutTime _ => 2 * timeoutTime + 1
  | .wait timeoutTime => timeoutTime + 1
  | .failing => 2
  | .succeed | .finalFail => 1
  | .ended => 0

/-- The sends that a `TaskPing` has left at most. -/
def sendsLeft : Ping → Nat
  | .send timeoutTime => timeoutTime
  | .sending timeoutTime _ => timeoutTime - 1
  | _ => 0

/-- `timeout_time` runs from 3 down to 1. -/
def Counting : Ping → Prop
  | .send timeoutTime | .sending timeoutTime _ | .wait timeoutTime =>
    1 ≤ timeoutTime ∧ timeoutTime ≤ 3
  | _ => True

def ofPing (k : Nat) : Action → Bool
  | .ping i _ => i = k
  | _ => false

def sendOfPing (k : Nat) (action : Action) : Bool := action = .ping k .send

/-- The measure of ping `k`, before it is started too. -/
def left (measure : Ping → Nat) (k : Nat) (w : World) : Nat :=
  measure (w.pings[k]?.getD (.send 3))

/-- All pings count down. -/
def CountingDown (w : World) : Prop := ∀ ping ∈ w.pings, Counting ping

section Measures

variable {w w' : World} {action : Action} {k : Nat}

/-- Only the hub starts a `TaskPing`. -/
theorem pings_of_hub {a : HubAction} (h : HubMoved w a w') :
    w'.pings = w.pings ∨ w'.pings = w.pings ++ [.send 3] := by
  cases h with
  | @intro input message taken hub outputs htakes hmove =>
    have pings : taken.pings = w.pings := by cases htakes <;> rfl
    cases hmove with
    | keepAlive hat => exact .inr (congrArg (· ++ [Ping.send 3]) pings)
    | _ => exact .inl pings

/-- One turn of a `TaskPing`, by itself. -/
inductive Turn : Ping → PingAction → Ping → Prop where
  | send {timeoutTime receipt : Nat} :
      Turn (.send timeoutTime) .send (.sending timeoutTime receipt)
  | sent {timeoutTime receipt : Nat} :
      Turn (.sending timeoutTime receipt) .receipt (.wait timeoutTime)
  | sendFail {timeoutTime receipt : Nat} :
      Turn (.sending timeoutTime receipt) .sendFail (.sendFailed timeoutTime)
  | recv {timeoutTime j : Nat} : Turn (.wait timeoutTime) (.recv j) .succeed
  | timeout {timeoutTime : Nat} : Turn (.wait timeoutTime) .timeout (.waitFailed timeoutTime)
  | failing : Turn .failing .dispatch .finalFail
  | finalFail : Turn .finalFail .dispatch .ended
  | succeed : Turn .succeed .dispatch .ended

theorem turn_of_pingMoved {ping : Ping} {a : PingAction} (h : PingMoved w k ping a w') :
    ∃ next, Turn ping a next ∧ w'.pings = w.pings.set k next := by
  cases h with
  | send => exact ⟨_, .send, rfl⟩
  | sent hdone => exact ⟨_, .sent, rfl⟩
  | sendFail => exact ⟨_, .sendFail, rfl⟩
  | recv htake hreceiver => exact ⟨_, .recv, rfl⟩
  | timeout => exact ⟨_, .timeout, rfl⟩
  | failing => exact ⟨_, .failing, rfl⟩
  | finalFail => exact ⟨_, .finalFail, rfl⟩
  | succeed => exact ⟨_, .succeed, rfl⟩

theorem counting_of_turn {ping next : Ping} {a : PingAction} (h : Turn ping a next)
    (hI : Counting ping) : Counting next := by
  cases h with
  | @sendFail timeoutTime receipt =>
    unfold Ping.sendFailed
    unfold Counting at hI
    split
    · trivial
    · exact ⟨by omega, by omega⟩
  | @timeout timeoutTime =>
    unfold Ping.waitFailed
    unfold Counting at hI
    split
    · trivial
    · exact ⟨by omega, by omega⟩
  | send => exact hI
  | sent => exact hI
  | _ => trivial

/-- Each turn costs a step, and each send a send. -/
theorem left_of_turn {ping next : Ping} {a : PingAction} (h : Turn ping a next)
    (hI : Counting ping) : 1 + stepsLeft next ≤ stepsLeft ping ∧
      (if a = .send then 1 else 0) + sendsLeft next ≤ sendsLeft ping := by
  unfold Counting at hI
  cases h with
  | @send timeoutTime receipt =>
    simp only [stepsLeft, sendsLeft, if_true] at hI ⊢
    omega
  | @sendFail timeoutTime receipt =>
    simp only [Ping.sendFailed] at hI ⊢
    split <;> simp only [stepsLeft, sendsLeft, reduceCtorEq, if_false] <;> omega
  | @timeout timeoutTime =>
    simp only [Ping.waitFailed] at hI ⊢
    split <;> simp only [stepsLeft, sendsLeft, reduceCtorEq, if_false] <;> omega
  | _ =>
    simp only [stepsLeft, sendsLeft, reduceCtorEq, if_false] at hI ⊢
    omega

theorem countingDown_of_moved (h : Moved w action w') (hI : CountingDown w) : CountingDown w' := by
  intro ping hping
  rcases ping_or_not h with ⟨i, before, a, rfl, hget, hmoved⟩ | notPing
  · obtain ⟨next, turn, hpings⟩ := turn_of_pingMoved hmoved
    rw [hpings] at hping
    rcases List.mem_or_eq_of_mem_set hping with hmem | rfl
    · exact hI ping hmem
    · exact counting_of_turn turn (hI before (List.mem_of_getElem? hget))
  · rcases hub_or_not h with ⟨a, rfl, hmoved⟩ | notHub
    · rcases pings_of_hub hmoved with hsame | hstarted
      · exact hI ping (hsame ▸ hping)
      · rw [hstarted] at hping
        rcases List.mem_append.mp hping with hmem | hnew
        · exact hI ping hmem
        · rw [List.mem_singleton.mp hnew]
          exact ⟨by decide, by decide⟩
    · exact hI ping (pings_of_moved h notHub notPing ▸ hping)

/-- Outside ping `k` its measure stands still. -/
theorem left_of_other (measure : Ping → Nat) (h : Moved w action w')
    (hother : ofPing k action = false) : left measure k w' = left measure k w := by
  rcases ping_or_not h with ⟨i, before, a, rfl, hget, hmoved⟩ | notPing
  · obtain ⟨next, _, hpings⟩ := turn_of_pingMoved hmoved
    have hne : i ≠ k := of_decide_eq_false hother
    rw [left, left, hpings, List.getElem?_set_ne hne]
  · rcases hub_or_not h with ⟨a, rfl, hmoved⟩ | notHub
    · rcases pings_of_hub hmoved with hsame | hstarted
      · rw [left, left, hsame]
      · rw [left, left, hstarted]
        by_cases hlt : k < w.pings.length
        · rw [List.getElem?_append_left hlt]
        · rw [List.getElem?_append_right (Nat.le_of_not_lt hlt),
            List.getElem?_eq_none (Nat.le_of_not_lt hlt)]
          cases k - w.pings.length <;> rfl
    · rw [left, left, pings_of_moved h notHub notPing]

/-- A turn of ping `k` takes from both measures. -/
theorem left_of_ping {a : PingAction} (h : Moved w (.ping k a) w') (hI : CountingDown w) :
    1 + left stepsLeft k w' ≤ left stepsLeft k w ∧
      (if a = .send then 1 else 0) + left sendsLeft k w' ≤ left sendsLeft k w := by
  cases h with
  | @ping _ ping _ _ hget hmoved =>
    obtain ⟨next, turn, hpings⟩ := turn_of_pingMoved hmoved
    have after : w'.pings[k]? = some next := by
      rw [hpings, List.getElem?_set_self (List.getElem?_eq_some_iff.mp hget).1]
    simp only [left, hget, after, Option.getD_some]
    exact left_of_turn turn (hI ping (List.mem_of_getElem? hget))

theorem eq_of_ofPing (h : ofPing k action = true) : ∃ a, action = .ping k a := by
  cases action with
  | ping i a =>
    obtain rfl : i = k := of_decide_eq_true h
    exact ⟨a, rfl⟩
  | _ => cases h

theorem steps_drop (h : Moved w action w') (hI : CountingDown w) :
    (if ofPing k action = true then 1 else 0) + left stepsLeft k w' ≤ left stepsLeft k w := by
  by_cases hping : ofPing k action = true
  · obtain ⟨a, rfl⟩ := eq_of_ofPing hping
    rw [if_pos hping]
    exact (left_of_ping h hI).1
  · have same := left_of_other stepsLeft h (by simpa using hping)
    exact Nat.le_of_eq (by rw [if_neg hping, Nat.zero_add, same])

theorem sends_drop (h : Moved w action w') (hI : CountingDown w) :
    (if sendOfPing k action = true then 1 else 0) + left sendsLeft k w' ≤ left sendsLeft k w := by
  by_cases hping : ofPing k action = true
  · obtain ⟨a, rfl⟩ := eq_of_ofPing hping
    have drops := (left_of_ping h hI).2
    simpa [sendOfPing] using drops
  · have hsend : ¬ sendOfPing k action = true := by
      intro hsend
      rw [of_decide_eq_true hsend] at hping
      exact hping (decide_eq_true rfl)
    have same := left_of_other sendsLeft h (by simpa using hping)
    exact Nat.le_of_eq (by rw [if_neg hsend, Nat.zero_add, same])

theorem left_le (hI : CountingDown w) : left stepsLeft k w ≤ 8 ∧ left sendsLeft k w ≤ 3 := by
  unfold left
  cases hget : w.pings[k]? with
  | none => exact ⟨by decide, by decide⟩
  | some ping =>
    have counting := hI ping (List.mem_of_getElem? hget)
    rw [Option.getD_some]
    unfold Counting at counting
    cases ping <;> simp only [stepsLeft, sendsLeft] at counting ⊢ <;> omega

end Measures

/-! ## What it tells the hub -/

def fromPing (k : Nat) (msg : HubMsg) (e : Envelope) : Bool :=
  e.channel = (.ping k, .hub) && e.event = .hubMsg msg

/-- How often ping `k` has told the hub something, taken or not. -/
def toldHub (k : Nat) (msg : HubMsg) (w : World) : Nat :=
  w.log.count (.hubTook (.ping k) msg) + w.bus.countP (fromPing k msg)

/-- Where a `TaskPing` stands, what it has told. -/
def Said (success fail : Nat) : Option Ping → Prop
  | some .finalFail => success = 0 ∧ fail ≤ 1
  | some .ended => success = 1 ∧ fail = 0 ∨ success = 0 ∧ 1 ≤ fail ∧ fail ≤ 2
  | _ => success = 0 ∧ fail = 0

def SaysOnce (k : Nat) (w : World) : Prop :=
  Said (toldHub k .PingSuccess w) (toldHub k .PingFail w) w.pings[k]?

section Reports

variable {w w' : World} {action : Action} {k : Nat} {msg : HubMsg}

/-- The outputs of the hub take nothing. -/
theorem count_outputs (w : World) (message : Nat) (outputs : List Output) (sender : Worker) :
    (World.applyOutputs message w outputs).log.count (.hubTook sender msg) =
      w.log.count (.hubTook sender msg) := by
  induction outputs generalizing w with
  | nil => rfl
  | cons output rest ih =>
    have head : (World.applyOutput message w output).log.count (.hubTook sender msg) =
        w.log.count (.hubTook sender msg) := by
      cases output <;> simp [World.applyOutput]
    exact (ih (World.applyOutput message w output)).trans head

theorem countP_append_of_none {bus new : List Envelope}
    (hnew : ∀ e ∈ new, e.channel ≠ (.ping k, .hub)) :
    (bus ++ new).countP (fromPing k msg) = bus.countP (fromPing k msg) := by
  have none : new.countP (fromPing k msg) = 0 :=
    List.countP_eq_zero.mpr fun e he => by simp [fromPing, hnew e he]
  rw [List.countP_append, none, Nat.add_zero]

theorem countP_take {j : Nat} {e : Envelope} {rest : List Envelope}
    (htake : PairFifo.take Envelope.channel w.bus j = some (e, rest)) :
    w.bus.countP (fromPing k msg) =
      rest.countP (fromPing k msg) + if fromPing k msg e = true then 1 else 0 := by
  rw [(PairFifo.perm_of_take htake).countP_eq, List.countP_cons]

/-- Only a `dispatch` of ping `k` puts something into its channel to the hub. -/
theorem channel_of_emission {e : Envelope} (h : Emission w action e)
    (haction : action ≠ .ping k .dispatch) : e.channel ≠ (.ping k, .hub) := by
  intro heq
  have hreceiver : e.receiver = .hub := congrArg Prod.snd heq
  cases h with
  | pingFail hget hping =>
    cases heq
    exact haction rfl
  | pingSuccess hget =>
    cases heq
    exact haction rfl
  | mqtt => cases hreceiver
  | data => cases hreceiver
  | _ => cases heq

/-- What the hub takes moves from the bus to the history. -/
theorem toldHub_of_hub {a : HubAction} (h : HubMoved w a w') :
    toldHub k msg w' = toldHub k msg w := by
  cases h with
  | @intro input message taken hub outputs htakes hmove =>
    obtain ⟨new, hbus, hnew⟩ := applyOutputs_bus a w { taken with hub := hub } message outputs
    have quiet : ∀ e ∈ new, e.channel ≠ (.ping k, .hub) :=
      fun e he => channel_of_emission (hnew e he) (by simp)
    rw [toldHub, toldHub, hbus, countP_append_of_none quiet, count_outputs]
    have other {j message : Nat} {sender receiver : Worker} {event : BusEvent}
        {rest : List Envelope} (htake : PairFifo.take Envelope.channel w.bus j =
          some (⟨sender, receiver, event, message⟩, rest))
        (hnone : fromPing k msg ⟨sender, receiver, event, message⟩ = false) :
        rest.countP (fromPing k msg) = w.bus.countP (fromPing k msg) := by
      rw [countP_take htake, hnone]
      rfl
    cases htakes with
    | connecting htake => exact congrArg (_ + ·) (other htake (by simp [fromPing]))
    | network htake => exact congrArg (_ + ·) (other htake (by simp [fromPing]))
    | command htake => exact congrArg (_ + ·) (other htake (by simp [fromPing]))
    | clientData htake =>
      have same := other htake (by simp [fromPing])
      simp [same]
    | @hubMsg j sender msg' _ rest htake =>
      have took : w.bus.countP (fromPing k msg) = _ := countP_take htake
      by_cases heq : sender = .ping k ∧ msg' = msg
      · obtain ⟨rfl, rfl⟩ := heq
        have mine : fromPing k msg' ⟨.ping k, .hub, .hubMsg msg', message⟩ = true := by
          simp [fromPing, Envelope.channel]
        rw [if_pos mine] at took
        change (Event.hubTook (.ping k) msg' :: w.log).count (.hubTook (.ping k) msg') +
          rest.countP (fromPing k msg') = _
        rw [List.count_cons_self]
        omega
      · have hnone : fromPing k msg ⟨sender, .hub, .hubMsg msg', message⟩ = false := by
          simpa [fromPing, Envelope.channel] using heq
        have hevent : Event.hubTook sender msg' ≠ .hubTook (.ping k) msg := by
          simpa using heq
        change (Event.hubTook sender msg' :: w.log).count (.hubTook (.ping k) msg) +
          rest.countP (fromPing k msg) = _
        rw [List.count_cons_of_ne hevent, other htake hnone]
    | _ => rfl

theorem toldHub_of_other (h : Moved w action w') (hhub : ∀ a, action ≠ .hub a)
    (hdispatch : action ≠ .ping k .dispatch) : toldHub k msg w' = toldHub k msg w := by
  obtain ⟨events, hlog, hevents⟩ := log_outside h hhub
  have hcount : w'.log.count (.hubTook (.ping k) msg) = w.log.count (.hubTook (.ping k) msg) := by
    have none : events.count (.hubTook (.ping k) msg) = 0 := by
      rw [List.count_eq_zero]
      intro hmem
      cases hevents _ hmem
    rw [hlog, List.count_append, none, Nat.zero_add]
  have hqueue : w'.bus.countP (fromPing k msg) = w.bus.countP (fromPing k msg) := by
    cases busMoved h with
    | keep new hbus hnew =>
      rw [hbus]
      exact countP_append_of_none fun e he => channel_of_emission (hnew e he) hdispatch
    | @take j e rest new htaking htake hbus hnew =>
      have hnone : fromPing k msg e ≠ true := by
        intro hmine
        have hchannel : e.channel = (.ping k, .hub) := by
          simp only [fromPing, Bool.and_eq_true, decide_eq_true_eq] at hmine
          exact hmine.1
        have hreceiver : e.receiver = .hub := congrArg Prod.snd hchannel
        rw [hreceiver] at htaking
        cases htaking
        exact hhub _ rfl
      rw [hbus, countP_append_of_none fun e he => channel_of_emission (hnew e he) hdispatch,
        countP_take htake, if_neg hnone, Nat.add_zero]
  rw [toldHub, toldHub, hcount, hqueue]

/-- A `dispatch` tells the hub one thing. -/
theorem toldHub_dispatch (w : World) (next : Ping) (msg msg' : HubMsg) :
    toldHub k msg ((w.dispatch (.ping k) (.hubMsg msg') 0).setPing k next) =
      toldHub k msg w + if msg' = msg then 1 else 0 := by
  change w.log.count (.hubTook (.ping k) msg) +
    (w.bus ++ [Envelope.mk (.ping k) .hub (.hubMsg msg') 0]).countP (fromPing k msg) = _
  rw [List.countP_append, List.countP_singleton, toldHub, ← Nat.add_assoc]
  simp [fromPing, Envelope.channel]

theorem saysOnce_of_ping {ping : Ping} {a : PingAction} (hget : w.pings[k]? = some ping)
    (h : PingMoved w k ping a w') (hI : SaysOnce k w) : SaysOnce k w' := by
  unfold SaysOnce at hI ⊢
  rw [hget] at hI
  have after {next : Ping} (hpings : w'.pings = w.pings.set k next) : w'.pings[k]? = some next := by
    rw [hpings, List.getElem?_set_self (List.getElem?_eq_some_iff.mp hget).1]
  have quiet (ha : a ≠ .dispatch) : toldHub k .PingSuccess w' = toldHub k .PingSuccess w ∧
      toldHub k .PingFail w' = toldHub k .PingFail w := by
    have notDispatch : Action.ping k a ≠ .ping k .dispatch := by simpa using ha
    exact ⟨toldHub_of_other (.ping hget h) nofun notDispatch,
      toldHub_of_other (.ping hget h) nofun notDispatch⟩
  cases h with
  | send =>
    rw [after rfl, (quiet nofun).1, (quiet nofun).2]
    exact hI
  | sent hdone =>
    rw [after rfl, (quiet nofun).1, (quiet nofun).2]
    exact hI
  | sendFail =>
    rw [after rfl, (quiet nofun).1, (quiet nofun).2, Ping.sendFailed]
    split <;> exact hI
  | recv htake hreceiver =>
    rw [after rfl, (quiet nofun).1, (quiet nofun).2]
    exact hI
  | timeout =>
    rw [after rfl, (quiet nofun).1, (quiet nofun).2, Ping.waitFailed]
    split
    · exact ⟨hI.1, Nat.le_trans (Nat.le_of_eq hI.2) (Nat.zero_le 1)⟩
    · exact hI
  | failing =>
    obtain ⟨hsuccess, hfail⟩ := hI
    rw [after rfl, toldHub_dispatch, toldHub_dispatch, hsuccess, hfail]
    exact ⟨rfl, Nat.le_refl 1⟩
  | finalFail =>
    obtain ⟨hsuccess, hfail⟩ := hI
    rw [after rfl, toldHub_dispatch, toldHub_dispatch, hsuccess]
    exact .inr ⟨rfl, Nat.le_add_left 1 _, Nat.succ_le_succ hfail⟩
  | succeed =>
    obtain ⟨hsuccess, hfail⟩ := hI
    rw [after rfl, toldHub_dispatch, toldHub_dispatch, hsuccess, hfail]
    exact .inl ⟨rfl, rfl⟩

theorem saysOnce_of_moved (h : Moved w action w') (hI : SaysOnce k w) : SaysOnce k w' := by
  by_cases hping : ofPing k action = true
  · obtain ⟨a, rfl⟩ := eq_of_ofPing hping
    cases h with
    | ping hget hmoved => exact saysOnce_of_ping hget hmoved hI
  · have notDispatch : action ≠ .ping k .dispatch := by
      rintro rfl
      exact hping (decide_eq_true rfl)
    have told (msg : HubMsg) : toldHub k msg w' = toldHub k msg w := by
      rcases hub_or_not h with ⟨a, rfl, hmoved⟩ | notHub
      · exact toldHub_of_hub hmoved
      · exact toldHub_of_other h notHub notDispatch
    unfold SaysOnce at hI ⊢
    rw [told, told]
    rcases ping_or_not h with ⟨i, before, a, rfl, hget, hmoved⟩ | notPing
    · obtain ⟨next, _, hpings⟩ := turn_of_pingMoved hmoved
      have hne : i ≠ k := by simpa [ofPing] using hping
      rwa [hpings, List.getElem?_set_ne hne]
    · rcases hub_or_not h with ⟨a, rfl, hmoved⟩ | notHub
      · rcases pings_of_hub hmoved with hsame | hstarted
        · rwa [hsame]
        · rw [hstarted]
          by_cases hlt : k < w.pings.length
          · rwa [List.getElem?_append_left hlt]
          · rw [List.getElem?_eq_none (Nat.le_of_not_lt hlt)] at hI
            rw [List.getElem?_append_right (Nat.le_of_not_lt hlt)]
            cases k - w.pings.length <;> exact hI
      · rwa [pings_of_moved h notHub notPing]

end Reports

theorem reachable_counting {options : MqttOptions} {protocol : Protocol} {w : World}
    (h : Reachable World.step free (.init options protocol) w) (k : Nat) :
    CountingDown w ∧ SaysOnce k w := by
  have start : CountingDown (.init options protocol) ∧ SaysOnce k (.init options protocol) :=
    ⟨fun _ hmem => absurd hmem List.not_mem_nil, rfl, rfl⟩
  refine h.invariant (I := fun w => CountingDown w ∧ SaysOnce k w) start ?_
  intro w action w' _ ih _ hstep
  have moved := moved_of_step hstep
  exact ⟨countingDown_of_moved moved ih.1, saysOnce_of_moved moved ih.2⟩

/-- Nothing that another party does or leaves undone holds a `TaskPing` up. -/
theorem can_step {w : World} {k : Nat} {ping : Ping} (hget : w.pings[k]? = some ping)
    (hlive : ping ≠ .ended) : ∃ a, (w.step (.ping k a)).isSome = true := by
  cases ping with
  | send timeoutTime => exact ⟨.send, by simp [World.step, hget, World.stepPing]⟩
  | sending timeoutTime receipt => exact ⟨.sendFail, by simp [World.step, hget, World.stepPing]⟩
  | wait timeoutTime => exact ⟨.timeout, by simp [World.step, hget, World.stepPing]⟩
  | ended => exact absurd rfl hlive
  | _ => exact ⟨.dispatch, by simp [World.step, hget, World.stepPing]⟩

/-- In every run: (a) from wherever ping `k` stands, and before it is started, it
takes at most eight steps and sends at most three PINGREQs; (b) until it has ended
it can take one; (c) what it has told the hub fits where it stands, so that at its
end this is one `PingSuccess`, or one or two `PingFail`s. -/
theorem ping_comes_to_its_end {options : MqttOptions} {protocol : Protocol} {w : World}
    (h : Reachable World.step free (.init options protocol) w) (k : Nat) :
    (∀ acts w', GuardedRuns.run World.step w acts = some w' →
      acts.countP (ofPing k) ≤ 8 ∧ acts.countP (sendOfPing k) ≤ 3) ∧
    (∀ ping, w.pings[k]? = some ping → ping ≠ .ended →
      ∃ a, (w.step (.ping k a)).isSome = true) ∧
    Said (toldHub k .PingSuccess w) (toldHub k .PingFail w) w.pings[k]? := by
  obtain ⟨counting, said⟩ := reachable_counting h k
  refine ⟨?_, fun ping hget hlive => can_step hget hlive, said⟩
  intro acts w' hrun
  have background : ∀ s a s', CountingDown s → World.step s a = some s' → CountingDown s' :=
    fun s a s' hI hstep => countingDown_of_moved (moved_of_step hstep) hI
  have steps : acts.countP (ofPing k) + left stepsLeft k w' ≤ left stepsLeft k w :=
    countP_le_of_measure background
      (fun s a s' hI hstep => steps_drop (k := k) (moved_of_step hstep) hI) counting hrun
  have sends : acts.countP (sendOfPing k) + left sendsLeft k w' ≤ left sendsLeft k w :=
    countP_le_of_measure background
      (fun s a s' hI hstep => sends_drop (k := k) (moved_of_step hstep) hI) counting hrun
  obtain ⟨stepsBound, sendsBound⟩ := left_le (k := k) counting
  exact ⟨by omega, by omega⟩

/-- The law for a ping that the hub has just started, on a keep-alive timer. -/
theorem started_ping_comes_to_its_end :
    ∃ w, guardedRun World.step free (.init ⟨60, true⟩ .V5)
        [.hub (.connect 0), .network 0 (.connected false), .hub (.connecting 0), .hub .load,
          .hub .resend, .timer 0, .hub (.recv 1)] = some w ∧
      (∀ acts w', GuardedRuns.run World.step w acts = some w' →
        acts.countP (ofPing 0) ≤ 8 ∧ acts.countP (sendOfPing 0) ≤ 3) ∧
      Said (toldHub 0 .PingSuccess w) (toldHub 0 .PingFail w) w.pings[0]? :=
  end_of_guardedRun _ (by decide +kernel)
    (fun _ h => ⟨(ping_comes_to_its_end h 0).1, (ping_comes_to_its_end h 0).2.2⟩)

end PingRuns
