import ForMqttClient.TaskRuns

/-!
# Ping failures

A `PingFail` names neither its `TaskPing` nor its connection, and it waits in
the queue of the hub across reconnections. The results here say when it tears
down the connection it belongs to, and only that one.
-/

namespace Pings

open MqttData TaskHub HubSteps Tasks System SystemSteps TaskRuns GuardedRuns

/-- The ping was started since the last `ConnectSuccess`. -/
def pingOfConnection (k : Nat) : List Event → Bool
  | [] => false
  | .pingStarted i :: rest => i = k || pingOfConnection k rest
  | .user (.ConnectSuccess _) :: _ => false
  | _ :: rest => pingOfConnection k rest

/-- The `TaskPing` has given up; it still has to report it, or has ended. -/
def Failed (w : World) (k : Nat) : Prop :=
  w.pings[k]? = some .finalFail ∨ w.pings[k]? = some .ended

/-- The hub becomes connected only without a `PingFail` in its queue, and while
it is connected only pings of this connection report a failure. -/
def pingFailsInTime (w : World) : Action → Bool
  | .hub (.connecting j) =>
    match w.receive .hubNetwork j with
    | some (⟨_, _, .networkEvent (.Connected _), _⟩, _) => !decide (w.queued .PingFail)
    | _ => true
  | .ping k .dispatch =>
    match w.pings[k]? with
    | some .failing | some .finalFail => w.hub.state ≠ .Connected || pingOfConnection k w.log
    | _ => true
  | _ => true

/-- The transition that a `PingFail` of the ping has caused. -/
def failTaken (k : Nat) : Event := .hubTook (.ping k) .PingFail

structure InTime (w : World) : Prop where
  current : w.hub.state = .Connected → ∀ e ∈ w.bus, e.event = .hubMsg .PingFail →
    ∃ k, e.sender = .ping k ∧ pingOfConnection k w.log = true
  failed : ∀ e ∈ w.bus, e.event = .hubMsg .PingFail → ∀ k, e.sender = .ping k → Failed w k
  toHub : ∀ e ∈ w.bus, e.event = .hubMsg .PingFail → e.receiver = .hub
  past : w.hub.state = .Connected → ∀ k, failTaken k ∈ w.log → pingOfConnection k w.log = false
  once : ∀ k, w.log.count (failTaken k) ≤ 1
  known : ∀ k, failTaken k ∈ w.log → k < w.pings.length

section History

variable {k : Nat} {log : List Event}

/-- Events that neither connect nor take a `PingFail`; a ping that they start is
a new one. -/
structure Quiet (w : World) (events : List Event) : Prop where
  connects : ∀ event ∈ events, ∀ sessionPresent, event ≠ .user (.ConnectSuccess sessionPresent)
  takes : ∀ event ∈ events, ∀ sender, event ≠ .hubTook sender .PingFail
  starts : ∀ event ∈ events, ∀ k, event = .pingStarted k → k = w.pings.length

theorem pingOfConnection_append {events : List Event}
    (h : ∀ event ∈ events, ∀ sessionPresent, event ≠ .user (.ConnectSuccess sessionPresent)) :
    pingOfConnection k (events ++ log) =
      (decide (.pingStarted k ∈ events) || pingOfConnection k log) := by
  induction events with
  | nil => simp
  | cons event rest ih =>
    have tail := ih (fun e he => h e (List.mem_cons_of_mem _ he))
    have head := h event List.mem_cons_self
    cases event with
    | pingStarted i =>
      simp only [List.cons_append, pingOfConnection, tail, List.mem_cons]
      by_cases hik : i = k
      · simp [hik]
      · have hki : k ≠ i := fun h => hik h.symm
        simp [hik, hki]
    | user event =>
      cases event with
      | ConnectSuccess sessionPresent => exact absurd rfl (head sessionPresent)
      | _ => simpa [pingOfConnection] using tail
    | _ => simpa [pingOfConnection] using tail

theorem Quiet.count {w : World} {events : List Event} (h : Quiet w events) :
    (events ++ log).count (failTaken k) = log.count (failTaken k) := by
  have none : events.count (failTaken k) = 0 := by
    rw [List.count_eq_zero]
    intro hmem
    exact h.takes _ hmem (.ping k) rfl
  rw [List.count_append, none, Nat.zero_add]

theorem Quiet.mem {w : World} {events : List Event} (h : Quiet w events) :
    failTaken k ∈ events ++ log ↔ failTaken k ∈ log := by
  rw [List.mem_append]
  constructor
  · rintro (hmem | hmem)
    · exact absurd rfl (h.takes _ hmem (.ping k))
    · exact hmem
  · exact .inr

end History

section Steps

variable {w w' : World} {action : Action}

/-- A step of the hub connects, takes a `PingFail`, or does neither. -/
inductive HubHistory (w : World) (a : HubAction) (w' : World) : Prop where
  | connects (j : Nat) (sender : Worker) (sessionPresent : Bool) (message : Nat)
      (rest : List Envelope) (ha : a = .connecting j)
      (htake : PairFifo.take Envelope.channel w.bus j =
        some (⟨sender, .hubNetwork, .networkEvent (.Connected sessionPresent), message⟩, rest))
      (hlog : w'.log = .user (.ConnectSuccess sessionPresent) :: w.log)
  | fails (j : Nat) (sender : Worker) (message : Nat) (rest : List Envelope) (ha : a = .recv j)
      (htake : PairFifo.take Envelope.channel w.bus j =
        some (⟨sender, .hub, .hubMsg .PingFail, message⟩, rest))
      (hstate : w.hub.state = .Connected) (hstate' : w'.hub.state = .ToDisconnect .PingFail)
      (hlog : w'.log = .user (.ConnectedErr "ping fail") :: .hubTook sender .PingFail :: w.log)
  | quiet (events : List Event) (hlog : w'.log = events ++ w.log) (hquiet : Quiet w events)
      (hstate : w'.hub.state = .Connected → w.hub.state = .Connected)

/-- What the hub takes is recorded, if anything. -/
theorem takes_log {a : HubAction} {input : HubInput} {message : Nat} {taken : World}
    (h : Takes w a input message taken) (hinput : input ≠ .hubMsg .PingFail) :
    ∃ events, taken.log = events ++ w.log ∧ Quiet w events := by
  have none : ∃ events, w.log = events ++ w.log ∧ Quiet w events :=
    ⟨[], rfl, by constructor <;> simp⟩
  cases h with
  | @clientData j sender data message rest htake =>
    exact ⟨[.requested data], rfl, by constructor <;> simp⟩
  | @hubMsg j sender msg message rest htake =>
    refine ⟨[.hubTook sender msg], rfl, ?_, ?_, ?_⟩
    · simp
    · intro event hevent sender' heq
      rw [List.mem_singleton.mp hevent] at heq
      cases heq
      exact hinput rfl
    · simp
  | _ => exact none

theorem Quiet.append {events events' : List Event} (h : Quiet w events) (h' : Quiet w events') :
    Quiet w (events ++ events') := by
  constructor
  · intro event hevent
    rcases List.mem_append.mp hevent with hmem | hmem
    · exact h.connects event hmem
    · exact h'.connects event hmem
  · intro event hevent
    rcases List.mem_append.mp hevent with hmem | hmem
    · exact h.takes event hmem
    · exact h'.takes event hmem
  · intro event hevent
    rcases List.mem_append.mp hevent with hmem | hmem
    · exact h.starts event hmem
    · exact h'.starts event hmem

theorem hub_history {a : HubAction} (h : HubMoved w a w') : HubHistory w a w' := by
  cases h with
  | @intro input message taken hub outputs htakes hmove =>
    have pings : taken.pings = w.pings := by cases htakes <;> rfl
    have grown := applyOutputs_grown { taken with hub := hub } message outputs
    -- the events of the outputs, on top of what was taken
    have quiet (hinput : input ≠ .hubMsg .PingFail) (events : List Event)
        (hlog : (World.applyOutputs message { taken with hub := hub } outputs).log =
          events ++ taken.log) (hquiet : Quiet w events)
        (hstate : hub.state = .Connected → w.hub.state = .Connected) :
        HubHistory w a (World.applyOutputs message { taken with hub := hub } outputs) := by
      obtain ⟨first, hfirst, hquiet'⟩ := takes_log htakes hinput
      refine .quiet (events ++ first) ?_ (hquiet.append hquiet') (grown.hub ▸ hstate)
      rw [hlog, hfirst, List.append_assoc]
    cases hmove with
    | connected hat =>
      cases htakes with
      | connecting htake => exact .connects _ _ _ _ _ rfl htake rfl
    | pingFail hat =>
      cases htakes with
      | hubMsg htake => exact .fails _ _ _ _ rfl htake hat.state rfl rfl
    | keepAlive hat =>
      refine quiet (by simp) [.pingStarted taken.pings.length] rfl ?_ (fun h => h)
      constructor <;> simp [pings]
    | accept hat hid hpop hfresh =>
      exact quiet (by simp) [_, _] rfl (by constructor <;> simp) (fun h => h)
    | rxAccept hat hfree hspec =>
      exact quiet (by simp) [_, _] rfl (by constructor <;> simp) (fun h => h)
    | resendEntry hat hentry =>
      exact quiet (by simp) [_] rfl (by constructor <;> simp) (fun h => h)
    | publishQoS0 hat => exact quiet (by simp) [_] rfl (by constructor <;> simp) (fun h => h)
    | recoverRel hat hfind hentry =>
      exact quiet (by simp) [_] rfl (by constructor <;> simp) (fun h => h)
    | rxQos0 hat hqos => exact quiet (by simp) [_] rfl (by constructor <;> simp) (fun h => h)
    | rxDup hat hid hheld => exact quiet (by simp) [_] rfl (by constructor <;> simp) (fun h => h)
    | affirmRxPublish hat hheld =>
      exact quiet (by simp) [_] rfl (by constructor <;> simp) (fun h => h)
    | turnFail hat hauto => exact quiet (by simp) [_] rfl (by constructor <;> simp) (fun h => h)
    | turnDisconnect hat hauto =>
      exact quiet (by simp) [_] rfl (by constructor <;> simp) (fun h => h)
    | giveUpFail hat hauto => exact quiet (by simp) [_] rfl (by constructor <;> simp) (by simp)
    | giveUpDisconnect hat hauto =>
      exact quiet (by simp) [_] rfl (by constructor <;> simp) (by simp)
    | connectedErr hat => exact quiet (by simp) [_] rfl (by constructor <;> simp) (by simp)
    | brokerDisconnect hat =>
      exact quiet (by simp) [_] rfl (by constructor <;> simp) (fun _ => hat.state)
    | disconnect hat hnext =>
      refine quiet (by simp) [] rfl (by constructor <;> simp) ?_
      rcases hnext with rfl | rfl <;> simp
    | commandsStop hat => exact quiet (by simp) [] rfl (by constructor <;> simp) (by simp)
    | commandDrop hat => exact quiet (by simp) [] rfl (by constructor <;> simp) (by simp)
    | commandViolence hat => exact quiet (by simp) [] rfl (by constructor <;> simp) (by simp)
    | _ => exact quiet (by simp) [] rfl (by constructor <;> simp) (fun h => h)

theorem quiet_outside {events : List Event} (h : ∀ event ∈ events, Outside event) :
    Quiet w events := by
  constructor
  · intro event hevent sessionPresent heq
    cases h event hevent with
    | @user msg => cases msg <;> cases heq
    | _ => cases heq
  · intro event hevent sender heq
    subst heq
    cases h _ hevent
  · intro event hevent k heq
    subst heq
    cases h _ hevent

theorem pings_length_le (h : Moved w action w') : w.pings.length ≤ w'.pings.length := by
  rcases hub_or_not h with ⟨a, rfl, hmoved⟩ | notHub
  · cases hmoved with
    | @intro input message taken hub outputs htakes hmove =>
      have pings : taken.pings = w.pings := by cases htakes <;> rfl
      exact pings ▸ (applyOutputs_grown { taken with hub := hub } message outputs).pings.length_le
  · rcases ping_or_not h with ⟨i, ping, a, rfl, hget, hmoved⟩ | notPing
    · cases hmoved <;> exact Nat.le_of_eq List.length_set.symm
    · exact Nat.le_of_eq (congrArg List.length (pings_of_moved h notHub notPing)).symm

/-- A `TaskPing` that has given up stays so. -/
theorem failed_of_moved (h : Moved w action w') {k : Nat} (hfailed : Failed w k) :
    Failed w' k := by
  have same (hpings : w'.pings[k]? = w.pings[k]?) : Failed w' k := by
    rwa [Failed, hpings]
  rcases hub_or_not h with ⟨a, rfl, hmoved⟩ | notHub
  · cases hmoved with
    | @intro input message taken hub outputs htakes hmove =>
      have pings : taken.pings = w.pings := by cases htakes <;> rfl
      obtain ⟨more, hmore⟩ := (applyOutputs_grown { taken with hub := hub } message outputs).pings
      have hlt : k < w.pings.length := by
        rcases hfailed with hget | hget
        · exact (List.getElem?_eq_some_iff.mp hget).1
        · exact (List.getElem?_eq_some_iff.mp hget).1
      apply same
      rw [← hmore, ← pings, List.getElem?_append_left (pings ▸ hlt)]
  · rcases ping_or_not h with ⟨i, ping, a, rfl, hget, hmoved⟩ | notPing
    · by_cases hik : i = k
      · subst hik
        have hlt := (List.getElem?_eq_some_iff.mp hget).1
        rcases hfailed with hfinal | hended
        · obtain rfl := Option.some.inj (hget.symm.trans hfinal)
          cases hmoved with
          | finalFail => exact .inr (List.getElem?_set_self hlt)
        · obtain rfl := Option.some.inj (hget.symm.trans hended)
          cases hmoved
      · cases hmoved <;> exact same (List.getElem?_set_ne hik)
    · exact same (congrArg (·[k]?) (pings_of_moved h notHub notPing))

/-- A `PingFail` is put in the queue by a `TaskPing` that has given up. -/
theorem new_pingFail (htrack : OnTrack w) (h : Moved w action w') {e : Envelope} (he : e ∈ w'.bus)
    (hevent : e.event = .hubMsg .PingFail) :
    e ∈ w.bus ∨ ∃ k, action = .ping k .dispatch ∧ e.sender = .ping k ∧
      (w.pings[k]? = some .failing ∨ w.pings[k]? = some .finalFail) ∧ Failed w' k := by
  rcases mem_bus_of_moved h he with hmem | hnew
  · exact .inl hmem
  · cases hnew with
    | @pingFail i ping hget hping =>
      have hlt := (List.getElem?_eq_some_iff.mp hget).1
      refine .inr ⟨i, rfl, rfl, ?_, ?_⟩
      · rcases hping with rfl | rfl
        · exact .inl hget
        · exact .inr hget
      · cases h with
        | ping hget' hmoved =>
          obtain rfl := Option.some.inj (hget.symm.trans hget')
          cases hmoved with
          | failing => exact .inl (List.getElem?_set_self hlt)
          | finalFail => exact .inr (List.getElem?_set_self hlt)
          | succeed => rcases hping with hping | hping <;> cases hping
    | task hget hphase hprog =>
      cases hevent
      cases htrack.taskMsg hget hprog
    | _ => cases hevent

/-- What the guard says when a `TaskPing` reports its failure. -/
theorem fail_of_connection {k : Nat} (hok : pingFailsInTime w (.ping k .dispatch) = true)
    (hping : w.pings[k]? = some .failing ∨ w.pings[k]? = some .finalFail)
    (hstate : w.hub.state = .Connected) : pingOfConnection k w.log = true := by
  rcases hping with hget | hget <;> simpa [pingFailsInTime, hget, hstate] using hok

/-- Steps that neither connect nor take a `PingFail`. -/
theorem InTime.quiet (htrack : OnTrack w) (hI : InTime w) (hok : pingFailsInTime w action = true)
    (h : Moved w action w') {events : List Event} (hlog : w'.log = events ++ w.log)
    (hquiet : Quiet w events) (hstate : w'.hub.state = .Connected → w.hub.state = .Connected) :
    InTime w' := by
  constructor
  · intro hconnected e he hevent
    rcases new_pingFail htrack h he hevent with hmem | ⟨k, rfl, hsender, hping, _⟩
    · obtain ⟨k, hsender, hk⟩ := hI.current (hstate hconnected) e hmem hevent
      refine ⟨k, hsender, ?_⟩
      rw [hlog, pingOfConnection_append hquiet.connects, hk, Bool.or_true]
    · refine ⟨k, hsender, ?_⟩
      rw [hlog, pingOfConnection_append hquiet.connects,
        fail_of_connection hok hping (hstate hconnected), Bool.or_true]
  · intro e he hevent k hsender
    rcases new_pingFail htrack h he hevent with hmem | ⟨k', rfl, hsender', _, hfailed⟩
    · exact failed_of_moved h (hI.failed e hmem hevent k hsender)
    · cases hsender.symm.trans hsender'
      exact hfailed
  · intro e he hevent
    rcases mem_bus_of_moved h he with hmem | hnew
    · exact hI.toHub e hmem hevent
    · cases hnew <;> first | rfl | cases hevent
  · intro hconnected k hk
    rw [hlog, hquiet.mem] at hk
    have fresh : Event.pingStarted k ∉ events := by
      intro hmem
      have := hquiet.starts _ hmem k rfl
      have := hI.known k hk
      omega
    rw [hlog, pingOfConnection_append hquiet.connects, hI.past (hstate hconnected) k hk]
    simpa using fresh
  · intro k
    rw [hlog, hquiet.count]
    exact hI.once k
  · intro k hk
    rw [hlog, hquiet.mem] at hk
    exact Nat.lt_of_lt_of_le (hI.known k hk) (pings_length_le h)

/-- The hub becomes `Connected` with nothing of an earlier connection in its queue. -/
theorem InTime.connects (htrack : OnTrack w) (hI : InTime w) {j message : Nat} {sender : Worker}
    {sessionPresent : Bool} {rest : List Envelope}
    (hok : pingFailsInTime w (.hub (.connecting j)) = true)
    (h : Moved w (.hub (.connecting j)) w')
    (htake : PairFifo.take Envelope.channel w.bus j =
      some (⟨sender, .hubNetwork, .networkEvent (.Connected sessionPresent), message⟩, rest))
    (hlog : w'.log = .user (.ConnectSuccess sessionPresent) :: w.log) : InTime w' := by
  have none : ¬ w.queued .PingFail := by
    simpa [pingFailsInTime, receive_of_take htake] using hok
  have gone : ∀ e ∈ w'.bus, e.event ≠ .hubMsg .PingFail := by
    intro e he hevent
    rcases new_pingFail htrack h he hevent with hmem | ⟨_, haction, _⟩
    · exact none ⟨e, hmem, hI.toHub e hmem hevent, hevent⟩
    · cases haction
  constructor
  · intro _ e he hevent
    exact absurd hevent (gone e he)
  · intro e he hevent
    exact absurd hevent (gone e he)
  · intro e he hevent
    exact absurd hevent (gone e he)
  · intro _ k _
    rw [hlog, pingOfConnection]
  · intro k
    rw [hlog, List.count_cons_of_ne (by simp [failTaken])]
    exact hI.once k
  · intro k hk
    rw [hlog, List.mem_cons] at hk
    rcases hk with hk | hk
    · cases hk
    · exact Nat.lt_of_lt_of_le (hI.known k hk) (pings_length_le h)

/-- The hub takes a `PingFail`: the first one of its `TaskPing`, which is of
this connection and has given up. -/
theorem InTime.fails (htrack : OnTrack w) (hI : InTime w) {j message : Nat} {sender : Worker}
    {rest : List Envelope} (h : Moved w (.hub (.recv j)) w')
    (htake : PairFifo.take Envelope.channel w.bus j =
      some (⟨sender, .hub, .hubMsg .PingFail, message⟩, rest))
    (hstate : w.hub.state = .Connected) (hstate' : w'.hub.state = .ToDisconnect .PingFail)
    (hlog : w'.log = .user (.ConnectedErr "ping fail") :: .hubTook sender .PingFail :: w.log) :
    InTime w' := by
  have hmem := PairFifo.mem_of_take htake
  obtain ⟨k₀, rfl, hk₀⟩ := hI.current hstate _ hmem rfl
  have new : failTaken k₀ ∉ w.log := by
    intro htaken
    rw [hI.past hstate k₀ htaken] at hk₀
    cases hk₀
  have hlt : k₀ < w.pings.length := by
    rcases hI.failed _ hmem rfl k₀ rfl with hget | hget
    · exact (List.getElem?_eq_some_iff.mp hget).1
    · exact (List.getElem?_eq_some_iff.mp hget).1
  have old : ∀ e ∈ w'.bus, e.event = .hubMsg .PingFail → e ∈ w.bus := by
    intro e he hevent
    rcases new_pingFail htrack h he hevent with hmem | ⟨_, haction, _⟩
    · exact hmem
    · cases haction
  constructor
  · intro hconnected
    rw [hstate'] at hconnected
    cases hconnected
  · intro e he hevent k hsender
    exact failed_of_moved h (hI.failed e (old e he hevent) hevent k hsender)
  · intro e he hevent
    exact hI.toHub e (old e he hevent) hevent
  · intro hconnected
    rw [hstate'] at hconnected
    cases hconnected
  · intro k
    rw [hlog, List.count_cons_of_ne (by simp [failTaken])]
    by_cases hk : k = k₀
    · subst hk
      have first : (failTaken k :: w.log).count (failTaken k) = 1 := by
        rw [List.count_cons_self, List.count_eq_zero.mpr new]
      exact Nat.le_of_eq first
    · rw [List.count_cons_of_ne (by simpa [failTaken] using fun h => hk h.symm)]
      exact hI.once k
  · intro k hk
    rw [hlog] at hk
    have : k = k₀ ∨ failTaken k ∈ w.log := by simpa [failTaken] using hk
    rcases this with rfl | hk
    · exact Nat.lt_of_lt_of_le hlt (pings_length_le h)
    · exact Nat.lt_of_lt_of_le (hI.known k hk) (pings_length_le h)

theorem inTime_of_moved (htrack : OnTrack w) (hok : pingFailsInTime w action = true)
    (h : Moved w action w') (hI : InTime w) : InTime w' := by
  rcases hub_or_not h with ⟨a, rfl, hmoved⟩ | notHub
  · cases hub_history hmoved with
    | quiet events hlog hquiet hstate => exact hI.quiet htrack hok h hlog hquiet hstate
    | connects j sender sessionPresent message rest ha htake hlog =>
      subst ha
      exact hI.connects htrack hok h htake hlog
    | fails j sender message rest ha htake hstate hstate' hlog =>
      subst ha
      exact hI.fails htrack h htake hstate hstate' hlog
  · obtain ⟨events, hlog, houtside⟩ := log_outside h notHub
    exact hI.quiet htrack hok h hlog (quiet_outside houtside)
      (fun hc => (hub_of_moved h notHub).1 ▸ hc)

/-- The hub goes to `ToDisconnect(PingFail)` only by taking a `PingFail`. -/
theorem takes_pingFail {a : HubAction} (h : HubMoved w a w') (hstate : w.hub.state = .Connected)
    (hstate' : w'.hub.state = .ToDisconnect .PingFail) :
    ∃ j sender message rest, a = .recv j ∧ PairFifo.take Envelope.channel w.bus j =
      some (⟨sender, .hub, .hubMsg .PingFail, message⟩, rest) := by
  cases h with
  | @intro input message taken hub outputs htakes hmove =>
    rw [(applyOutputs_grown { taken with hub := hub } message outputs).hub] at hstate'
    cases hmove with
    | pingFail hat =>
      cases htakes with
      | hubMsg htake => exact ⟨_, _, _, _, rfl, htake⟩
    | brokerDisconnect hat =>
      revert hstate'
      cases w.hub.options.autoReconnect <;> simp
    | disconnect hat hnext =>
      rcases hnext with rfl | rfl
      · cases hstate'
      · cases hstate'
    | _ =>
      first
        | cases hstate'
        | exact absurd (hstate.symm.trans hstate') (by simp)

theorem reachable_inTime {options : MqttOptions} {protocol : Protocol}
    (h : Reachable World.step (fun w a => pingFailsInTime w a = true)
      (.init options protocol) w) : InTime w := by
  refine h.invariant ?_ ?_
  · constructor <;> intros <;> simp_all [World.init]
  · intro w action w' hr ih hok hstep
    exact inTime_of_moved (reachable_onTrack hr) hok (moved_of_step hstep) ih

end Steps

/-- In every run without late ping failures, the hub goes from `Connected` to
`ToDisconnect(PingFail)` only by the `PingFail` of a `TaskPing` that was
started during the current connection and has given up; and each `TaskPing`
causes at most one such transition. -/
theorem ping_failures_attributed {options : MqttOptions} {protocol : Protocol} {w : World}
    (h : Reachable World.step (fun w a => pingFailsInTime w a = true)
      (.init options protocol) w) :
    (∀ action w', w.step action = some w' → w.hub.state = .Connected →
      w'.hub.state = .ToDisconnect .PingFail →
      ∃ j k message rest, action = .hub (.recv j) ∧
        PairFifo.take Envelope.channel w.bus j =
          some (⟨.ping k, .hub, .hubMsg .PingFail, message⟩, rest) ∧
        pingOfConnection k w.log = true ∧ Failed w k) ∧
    ∀ k, w.log.count (failTaken k) ≤ 1 := by
  have inTime := reachable_inTime h
  refine ⟨?_, inTime.once⟩
  intro action w' hstep hstate hstate'
  rcases hub_or_not (moved_of_step hstep) with ⟨a, rfl, hmoved⟩ | notHub
  · obtain ⟨j, sender, message, rest, rfl, htake⟩ := takes_pingFail hmoved hstate hstate'
    have hmem := PairFifo.mem_of_take htake
    obtain ⟨k, rfl, hk⟩ := inTime.current hstate _ hmem rfl
    exact ⟨j, k, message, rest, rfl, htake, hk, inTime.failed _ hmem rfl k rfl⟩
  · rw [(hub_of_moved (moved_of_step hstep) notHub).1, hstate] at hstate'
    cases hstate'

/-- A ping whose three sends fail reports it twice, and the second `PingFail`
tears down the next connection. -/
theorem second_failure_of_first_connection :
    ∃ w, Reachable World.step free (.init ⟨60, true⟩ .V4) w ∧
      (w.hub.state = .Connected ∧ pingOfConnection 0 w.log = false ∧
        w.log.count (failTaken 0) = 1 ∧
        (w.step (.hub (.recv 4))).any (fun w' =>
          w'.hub.state = .ToDisconnect .PingFail ∧ w'.log.count (failTaken 0) = 2)) :=
  exists_of_guardedRun
    [.hub (.connect 0), .network 0 (.connected false), .hub (.connecting 0), .hub .load,
      .hub .resend, .timer 0, .hub (.recv 1),
      .ping 0 .send, .ping 0 .sendFail, .ping 0 .send, .ping 0 .sendFail, .ping 0 .send,
      .ping 0 .sendFail, .ping 0 .dispatch, .ping 0 .dispatch,
      .hub (.recv 4), .hub .disconnect, .hub (.connect 0), .network 1 (.connected false),
      .hub (.connecting 7), .hub .load, .hub .resend]
    (by decide +kernel)

/-- The law where the first failure of a ping waits in the queue. -/
theorem ping_failures_attributed_while_one_waits :
    ∃ w, guardedRun World.step (fun w a => pingFailsInTime w a = true) (.init ⟨60, true⟩ .V4)
        [.hub (.connect 0), .network 0 (.connected false), .hub (.connecting 0), .hub .load,
          .hub .resend, .timer 0, .hub (.recv 1),
          .ping 0 .send, .ping 0 .sendFail, .ping 0 .send, .ping 0 .sendFail, .ping 0 .send,
          .ping 0 .sendFail, .ping 0 .dispatch] = some w ∧
      ((∀ action w', w.step action = some w' → w.hub.state = .Connected →
        w'.hub.state = .ToDisconnect .PingFail →
        ∃ j k message rest, action = .hub (.recv j) ∧
          PairFifo.take Envelope.channel w.bus j =
            some (⟨.ping k, .hub, .hubMsg .PingFail, message⟩, rest) ∧
          pingOfConnection k w.log = true ∧ Failed w k) ∧
      ∀ k, w.log.count (failTaken k) ≤ 1) :=
  end_of_guardedRun _ (by decide +kernel) (fun _ h => ping_failures_attributed h)

end Pings
