import ForMqttClient.LossyBus
import ForMqttClient.Sendable
import ForMqttClient.TextFields

/-!
# The calls of the user

A call of `Client` draws a trace id, makes a request of its arguments and puts it
on the bus; the trace id is all by which the user knows the request again when an
event names it. Clones of a `Client` may be at work at the same time, and every
client and every network task of the process draws from the same counter. The call
has returned when its request is dispatched; the bus may drop the request all the same.
-/

namespace TaskClient

open MqttData System LossyBus

/-- The methods of `Client` that make a request. -/
inductive Call where
  | publish (topic : String) (qos : QoS) (payload : Bytes) (retain : Bool)
  | publishWithTraceId (topic : String) (qos : QoS) (payload : Bytes) (retain : Bool)
      (traceId : TraceId)
  | publishByArc (topic : String) (qos : QoS) (payload : Bytes) (retain : Bool)
  | toSubscribe (topic : String) (qos : QoS)
  | toSubscribeWithTraceId (topic : String) (qos : QoS) (id : TraceId)
  | unsubscribe (topic : String)
  | unsubscribeWithTraceId (topic : String) (id : TraceId)
  deriving DecidableEq, Repr

/-- The trace id that the user gives; the other methods begin with `Id::id()`. -/
def Call.given : Call → Option TraceId
  | .publishWithTraceId _ _ _ _ traceId => some traceId
  | .toSubscribeWithTraceId _ _ id => some id
  | .unsubscribeWithTraceId _ id => some id
  | _ => none

/-- The request of a call, up to `dispatch_event`. -/
def Client.request (client : Client) (id : TraceId) : Call → Except ClientErr ClientData
  | .publish topic qos payload retain => client.publishWithTraceId topic qos payload retain id
  | .publishWithTraceId topic qos payload retain traceId =>
    client.publishWithTraceId topic qos payload retain traceId
  | .publishByArc topic qos payload retain => client.publishByArc topic qos payload retain id
  | .toSubscribe topic qos => .ok (client.toSubscribeWithTraceId topic qos id)
  | .toSubscribeWithTraceId topic qos id => .ok (client.toSubscribeWithTraceId topic qos id)
  | .unsubscribe topic => .ok (client.unsubscribeWithTraceId topic id)
  | .unsubscribeWithTraceId topic id => .ok (client.unsubscribeWithTraceId topic id)

/-- A client before its system. -/
structure Desk where
  client : Client
  /-- `ID`, one for the process. -/
  id : Nat
  /-- The requests of calls that have not come to `dispatch_event`. -/
  underWay : List ClientData
  system : Lossy
  /-- History: what `Id::id()` has returned, and the requests dispatched, oldest first. -/
  drawn : List TraceId
  made : List ClientData

def Desk.init (options : MqttOptions) (protocol : Protocol) : Desk where
  client := ⟨protocol⟩
  id := 0
  underWay := []
  system := .init options protocol
  drawn := []
  made := []

/-- `drawElsewhere` is a call of another client of the process, or a `TaskNetwork::init`;
`system` is anything that the rest of the client, its broker or `Client::disconnect`
does, a loss on the bus, or an event that the user takes. -/
inductive DeskAction where
  | call (call : Call)
  | dispatch (k : Nat)
  | drawElsewhere
  | system (action : LossyAction)
  deriving DecidableEq, Repr

/-- `Id::id()`: `ID` is an `AtomicU32`, whose `fetch_add` wraps. -/
def Desk.draw (d : Desk) : Desk :=
  { d with id := (d.id + 1) % u32Size, drawn := d.drawn ++ [d.id] }

/-- A call up to its request; a refused one has drawn its id all the same. -/
def Desk.take (d : Desk) (request : Except ClientErr ClientData) : Desk :=
  match request with
  | .ok data => { d with underWay := d.underWay ++ [data] }
  | .error _ => d

def Desk.step (d : Desk) : DeskAction → Option Desk
  | .call call =>
    match call.given with
    | some id => some (d.take (d.client.request id call))
    | none => some (d.draw.take (d.client.request d.id call))
  | .dispatch k =>
    match d.underWay[k]? with
    | some data =>
      (d.system.step (.act (.request data))).map (fun system =>
        { d with
          system := system
          underWay := d.underWay.eraseIdx k
          made := d.made ++ [data] })
    | none => none
  | .drawElsewhere => some d.draw
  | .system action =>
    match action with
    | .act (.request _) => none -- only calls make requests
    | action => (d.system.step action).map (fun system => { d with system := system })

end TaskClient

namespace Calls

open MqttData TaskHub HubSteps Tasks System SystemSteps GuardedRuns Completions Provenance
open TaskClient Requests Losses LossyBus Sendable

/-! ## From the calls to the hub -/

def takenBy : Event → Option ClientData
  | .requested data => some data
  | _ => none

/-- The requests that the hub has taken, oldest first. -/
def taken (log : List Event) : List ClientData := log.reverse.filterMap takenBy

def asked : Envelope → Option ClientData
  | ⟨_, _, .clientData data, _⟩ => some data
  | _ => none

/-- The requests in the queue of the hub, oldest first. -/
def waiting (bus : List Envelope) : List ClientData :=
  (PairFifo.channel Envelope.channel (.client, .hub) bus).filterMap asked

/-- Requests come from the user. -/
def Asking (w : World) : Prop :=
  ∀ e ∈ w.bus, ∀ data, e.event = .clientData data → e.sender = .client

section Queue

variable {w w' : World} {action : Action}

theorem asking_of_moved (h : Moved w action w') (hI : Asking w) : Asking w' := by
  intro e he data hevent
  rcases mem_bus_of_moved h he with hold | hnew
  · exact hI e hold data hevent
  · cases hnew with
    | request => rfl
    | _ => cases hevent

theorem taken_outputs (message : Nat) (outputs : List Output) :
    ∀ w, taken (World.applyOutputs message w outputs).log = taken w.log := by
  induction outputs with
  | nil => exact fun w => rfl
  | cons output rest ih =>
    intro w
    have first : taken (World.applyOutput message w output).log = taken w.log := by
      cases output <;> simp [World.applyOutput, taken, takenBy]
    exact (ih (World.applyOutput message w output)).trans first

theorem taken_outside {events log : List Event} (h : ∀ event ∈ events, Outside event) :
    taken (events ++ log) = taken log := by
  have none : events.reverse.filterMap takenBy = [] := by
    refine List.filterMap_eq_nil_iff.mpr fun event hmem => ?_
    cases h event (List.mem_reverse.mp hmem) <;> rfl
  rw [taken, List.reverse_append, List.filterMap_append, none, List.append_nil, ← taken]

theorem waiting_take {j message : Nat} {event : BusEvent} {rest : List Envelope}
    (htake : PairFifo.take Envelope.channel w.bus j =
      some (⟨.client, .hub, event, message⟩, rest)) :
    waiting w.bus = (asked ⟨.client, .hub, event, message⟩).toList ++ waiting rest := by
  have head : PairFifo.channel Envelope.channel (.client, .hub) w.bus =
      ⟨.client, .hub, event, message⟩ ::
        PairFifo.channel Envelope.channel (.client, .hub) rest := PairFifo.channel_take htake
  rw [waiting, head, waiting, List.filterMap_cons]
  cases asked ⟨.client, .hub, event, message⟩ <;> rfl

theorem waiting_take_of_ne {j : Nat} {envelope : Envelope} {rest : List Envelope}
    (htake : PairFifo.take Envelope.channel w.bus j = some (envelope, rest))
    (hne : envelope.channel ≠ (.client, .hub)) : waiting rest = waiting w.bus := by
  rw [waiting, waiting, PairFifo.channel_take_of_ne htake hne]

theorem waiting_append (older newer : List Envelope) :
    waiting (older ++ newer) = waiting older ++ waiting newer := by
  rw [waiting, PairFifo.channel_append, List.filterMap_append, ← waiting, ← waiting]

/-- What the hub takes of the requests moves from its queue into the history. -/
theorem taken_of_hub {a : HubAction} (h : HubMoved w a w') (hI : Asking w) :
    taken w'.log ++ waiting w'.bus = taken w.log ++ waiting w.bus := by
  cases h with
  | @intro input message seen hub outputs htakes hmove =>
    have hbus : waiting (World.applyOutputs message { seen with hub := hub } outputs).bus =
        waiting seen.bus := by
      rw [waiting, channel_applyOutputs rfl, ← waiting]
    rw [hbus, taken_outputs]
    have other {j message : Nat} {sender receiver : Worker} {event : BusEvent}
        {rest : List Envelope} (htake : PairFifo.take Envelope.channel w.bus j =
          some (⟨sender, receiver, event, message⟩, rest)) (hne : receiver ≠ .hub) :
        waiting rest = waiting w.bus :=
      waiting_take_of_ne htake (fun heq => hne (congrArg Prod.snd heq))
    cases htakes with
    | connecting htake => exact congrArg (taken w.log ++ ·) (other htake (by simp))
    | network htake => exact congrArg (taken w.log ++ ·) (other htake (by simp))
    | command htake => exact congrArg (taken w.log ++ ·) (other htake (by simp))
    | @clientData j sender data message rest htake =>
      obtain rfl : sender = .client := hI _ (PairFifo.mem_of_take htake) data rfl
      rw [waiting_take htake]
      simp [taken, takenBy, asked]
    | @hubMsg j sender msg message rest htake =>
      have kept : waiting rest = waiting w.bus := by
        by_cases hsender : sender = .client
        · subst hsender
          exact (waiting_take htake).symm
        · exact waiting_take_of_ne htake (fun heq => hsender (congrArg Prod.fst heq))
      simp [taken, takenBy, kept]
    | _ => rfl

/-- No other step touches a request on its way. -/
theorem taken_of_moved (h : Moved w action w') (hI : Asking w)
    (hother : ∀ data, action ≠ .request data) :
    taken w'.log ++ waiting w'.bus = taken w.log ++ waiting w.bus := by
  rcases hub_or_not h with ⟨a, rfl, hmoved⟩ | notHub
  · exact taken_of_hub hmoved hI
  · obtain ⟨events, hlog, houtside⟩ := log_outside h notHub
    have kept : waiting w'.bus = waiting w.bus := by
      rw [waiting, waiting, channel_of_moved h ?_ ?_]
      · intro e hnew heq
        have hsender := congrArg Prod.fst heq
        have hreceiver := congrArg Prod.snd heq
        cases hnew with
        | request => exact hother _ rfl
        | mqtt => cases hreceiver
        | data => cases hreceiver
        | _ => cases heq
      · intro j htaking
        cases htaking
        exact notHub _ rfl
    rw [hlog, taken_outside houtside, kept]

theorem waiting_request (w : World) (data : ClientData) :
    waiting (w.dispatch .client (.clientData data) 0).bus = waiting w.bus ++ [data] := by
  simp [World.subscribers, waiting, PairFifo.channel, Envelope.channel, asked]

end Queue

/-! ## Trace ids -/

theorem id_of_request {client : Client} {id : TraceId} {call : Call} {data : ClientData}
    (drawn : call.given = none) (h : client.request id call = .ok data) : data.id = id := by
  have published {topic : String} {qos : QoS} {payload : Bytes} {retain : Bool}
      (h : client.publishWithTraceId topic qos payload retain id = .ok data) : data.id = id := by
    obtain ⟨_, rfl⟩ := Client.admitted_eq h
    cases qos <;> rfl
  cases call with
  | publish topic qos payload retain => exact published h
  | publishByArc topic qos payload retain => exact published h
  | toSubscribe topic qos =>
    obtain rfl := Except.ok.inj h
    unfold Client.toSubscribeWithTraceId
    cases client.protocol <;> rfl
  | unsubscribe topic =>
    obtain rfl := Except.ok.inj h
    unfold Client.unsubscribeWithTraceId
    cases client.protocol <;> rfl
  | _ => cases drawn

/-- The calls of this client let `Id::id()` choose their trace ids. -/
def Drawing (_ : Desk) : DeskAction → Prop
  | .call call => call.given = none
  | _ => True

instance (d : Desk) : (action : DeskAction) → Decidable (Drawing d action)
  | .call call => inferInstanceAs (Decidable (call.given = none))
  | .dispatch _ | .drawElsewhere | .system _ => inferInstanceAs (Decidable True)

/-- Ids are drawn in turn, and each request has one of them for itself. -/
structure Counted (d : Desk) : Prop where
  count : d.id = d.drawn.length % u32Size
  drawn : d.drawn = (List.range d.drawn.length).map (· % u32Size)
  own : ∃ spent, ((d.made ++ d.underWay).map ClientData.id ++ spent).Perm d.drawn

/-- What was dropped of the requests is all that is missing. -/
structure Served (d : Desk) : Prop where
  known : Known d.system.world
  asking : Asking d.system.world
  shares : Shares (taken d.system.world.log ++ waiting d.system.world.bus)
    (waiting d.system.lost) d.made

theorem resilient_known : Resilient Known where
  start := known_init
  kept := fun _ _ _ hI hstep => known_of_step hI hstep
  fewer := fun _ _ hsub hI =>
    ⟨⟨hI.sources.track,
        ⟨fun e he => hI.sources.routed.1 e (hsub.subset he),
          fun e he => hI.sources.routed.2 e (hsub.subset he)⟩,
        hI.sources.entries, hI.sources.tasks, hI.sources.passed, hI.sources.pings,
        hI.sources.streams, fun e he => hI.sources.acks e (hsub.subset he),
        fun e he => hI.sources.data e (hsub.subset he), hI.sources.wire, hI.sources.told⟩,
      hI.ids, hI.entries, fun e he => hI.coming e (hsub.subset he), hI.messages⟩

theorem resilient_asking : Resilient Asking where
  start := fun _ _ _ he => absurd he List.not_mem_nil
  kept := fun _ _ _ hI hstep => asking_of_moved (moved_of_step hstep) hI
  fewer := fun _ _ hsub hI e he => hI e (hsub.subset he)

section Desks

variable {d d' : Desk} {action : DeskAction}

/-- Nothing but a dispatch adds a request, and a loss is accounted for. -/
theorem shares_of_moved {s s' : Lossy} {action : LossyAction} {made : List ClientData}
    (hasking : Asking s.world) (h : LossyMoved s action s')
    (hother : ∀ data, action ≠ .act (.request data))
    (shares : Shares (taken s.world.log ++ waiting s.world.bus) (waiting s.lost) made) :
    Shares (taken s'.world.log ++ waiting s'.world.bus) (waiting s'.lost) made := by
  cases h with
  | @act action w' hstep =>
    have kept := taken_of_moved (moved_of_step hstep) hasking
      (fun data heq => hother data (heq ▸ rfl))
    exact kept ▸ shares
  | @drop _ older newer envelope hbus =>
    rw [hbus, waiting_append, waiting_append, ← List.append_assoc, ← List.append_assoc] at shares
    have after := shares.lose
    rwa [List.append_assoc, ← waiting_append, ← waiting_append] at after
  | @userRecv _ _ _ _ rest htake =>
    have same := waiting_take_of_ne htake (by simp [Envelope.channel])
    change Shares (taken s.world.log ++ waiting rest) _ _
    rwa [same]

theorem Served.of_step (hI : Served d) {action : LossyAction} {s' : Lossy}
    (h : d.system.step action = some s') {made : List ClientData}
    (shares : Shares (taken s'.world.log ++ waiting s'.world.bus) (waiting s'.lost) made)
    (client : Client) (id : Nat) (underWay : List ClientData) (drawn : List TraceId) :
    Served ⟨client, id, underWay, s', drawn, made⟩ :=
  ⟨resilient_known.kept_of_step hI.known h, resilient_asking.kept_of_step hI.asking h, shares⟩

theorem served_of_step (hI : Served d) (h : d.step action = some d') : Served d' := by
  cases action with
  | call call =>
    have same (d₀ : Desk) (h₀ : Served d₀) (request : Except ClientErr ClientData) :
        Served (d₀.take request) := by
      cases request with
      | ok data => exact ⟨h₀.known, h₀.asking, h₀.shares⟩
      | error err => exact h₀
    simp only [Desk.step] at h
    split at h
    · exact Option.some.inj h ▸ same d hI _
    · exact Option.some.inj h ▸ same d.draw ⟨hI.known, hI.asking, hI.shares⟩ _
  | dispatch k =>
    simp only [Desk.step] at h
    split at h
    · next data hget =>
      obtain ⟨s', hstep, rfl⟩ := Option.map_eq_some_iff.mp h
      refine hI.of_step hstep ?_ _ _ _ _
      cases hstep
      have more := hI.shares.append [data]
      rwa [List.append_assoc, ← waiting_request] at more
    · cases h
  | drawElsewhere =>
    obtain rfl := Option.some.inj h
    exact ⟨hI.known, hI.asking, hI.shares⟩
  | system action =>
    simp only [Desk.step] at h
    split at h
    · cases h
    · next hother =>
      obtain ⟨s', hstep, rfl⟩ := Option.map_eq_some_iff.mp h
      refine hI.of_step hstep ?_ _ _ _ _
      exact shares_of_moved hI.asking (lossyMoved_of_step hstep) (fun data heq => hother data heq)
        hI.shares

theorem Counted.draw (hI : Counted d) : Counted d.draw := by
  have more : (d.drawn ++ [d.id]).length = d.drawn.length + 1 := List.length_append
  refine ⟨?_, ?_, ?_⟩
  · change (d.id + 1) % u32Size = (d.drawn ++ [d.id]).length % u32Size
    rw [more, hI.count, Nat.mod_add_mod]
  · change d.drawn ++ [d.id] = (List.range (d.drawn ++ [d.id]).length).map (· % u32Size)
    rw [more, List.range_succ, List.map_append, ← hI.drawn, List.map_singleton, ← hI.count]
  · obtain ⟨spent, own⟩ := hI.own
    refine ⟨spent ++ [d.id], ?_⟩
    rw [← List.append_assoc]
    exact own.append_right [d.id]

theorem counted_of_step (hI : Counted d) (hok : Drawing d action) (h : d.step action = some d') :
    Counted d' := by
  cases action with
  | call call =>
    have drawn : call.given = none := hok
    simp only [Desk.step, drawn] at h
    obtain rfl := Option.some.inj h
    cases hrequest : d.client.request d.id call with
    | error err => exact hI.draw
    | ok data =>
      obtain ⟨spent, own⟩ := hI.own
      refine ⟨hI.draw.count, hI.draw.drawn, spent, ?_⟩
      change ((d.made ++ (d.underWay ++ [data])).map ClientData.id ++ spent).Perm
        (d.drawn ++ [d.id])
      have split : (d.made ++ (d.underWay ++ [data])).map ClientData.id =
          (d.made ++ d.underWay).map ClientData.id ++ [d.id] := by
        rw [← List.append_assoc, List.map_append, List.map_singleton, id_of_request drawn hrequest]
      have swap : ([d.id] ++ spent).Perm (spent ++ [d.id]) := List.perm_append_comm
      rw [split, List.append_assoc]
      refine (swap.append_left _).trans ?_
      rw [← List.append_assoc]
      exact own.append_right [d.id]
  | dispatch k =>
    simp only [Desk.step] at h
    split at h
    · next data hget =>
      obtain ⟨s', hstep, rfl⟩ := Option.map_eq_some_iff.mp h
      obtain ⟨spent, own⟩ := hI.own
      have moved : (d.made ++ [data] ++ d.underWay.eraseIdx k).Perm (d.made ++ d.underWay) := by
        obtain ⟨hk, rfl⟩ := List.getElem?_eq_some_iff.mp hget
        rw [List.append_assoc]
        exact (List.getElem_cons_eraseIdx_perm hk).append_left d.made
      exact ⟨hI.count, hI.drawn, spent, ((moved.map ClientData.id).append_right spent).trans own⟩
    · cases h
  | drawElsewhere => exact Option.some.inj h ▸ hI.draw
  | system action =>
    simp only [Desk.step] at h
    split at h
    · cases h
    · obtain ⟨s', hstep, rfl⟩ := Option.map_eq_some_iff.mp h
      exact ⟨hI.count, hI.drawn, hI.own⟩

theorem reachable_served {ok : Desk → DeskAction → Prop} {options : MqttOptions}
    {protocol : Protocol} (h : Reachable Desk.step ok (.init options protocol) d) : Served d := by
  have start : Served (.init options protocol) :=
    ⟨known_init options protocol, resilient_asking.start options protocol, Shares.whole []⟩
  refine h.invariant start ?_
  intro s action s' _ ih _ hstep
  exact served_of_step ih hstep

theorem reachable_counted {options : MqttOptions} {protocol : Protocol}
    (h : Reachable Desk.step Drawing (.init options protocol) d) : Counted d := by
  refine h.invariant ⟨rfl, rfl, [], List.Perm.refl _⟩ ?_
  intro s action s' _ ih hok hstep
  exact counted_of_step ih hok hstep

/-- Before the counter comes round, no id is drawn twice. -/
theorem Counted.nodup_iff (hI : Counted d) : d.drawn.Nodup ↔ d.drawn.length ≤ u32Size := by
  rw [hI.drawn, List.length_map, List.length_range]
  constructor
  · intro nodup
    refine Nat.le_of_not_lt fun more => ?_
    have first : ((List.range d.drawn.length).map (· % u32Size))[0]? = some 0 := by
      rw [List.getElem?_map, List.getElem?_range (Nat.lt_of_le_of_lt (Nat.zero_le _) more)]
      rfl
    have again : ((List.range d.drawn.length).map (· % u32Size))[u32Size]? = some 0 := by
      rw [List.getElem?_map, List.getElem?_range more]
      exact congrArg some (Nat.mod_self u32Size)
    have bound := (List.getElem?_eq_some_iff.mp first).1
    have same := (List.getElem?_inj bound nodup).mp (first.trans again.symm)
    exact absurd same (by decide)
  · intro few
    refine List.Nodup.map_on ?_ List.nodup_range
    intro a ha b hb same
    have hlt {k : Nat} (hk : k ∈ List.range d.drawn.length) : k % u32Size = k :=
      Nat.mod_eq_of_lt (Nat.lt_of_lt_of_le (List.mem_range.mp hk) few)
    exact (hlt ha).symm.trans (same.trans (hlt hb))

end Desks

/-! ## Completions -/

section Completions

variable {w : World} {t : TraceId}

theorem id_of_accepted (hI : Known w)
    {entry : UnacknowledgedClientData} (hmem : .accepted entry ∈ w.log) :
    ∃ data, .requested data ∈ w.log ∧ data.id = entry.id := by
  obtain ⟨data, packetId, hrequested, _, hentry⟩ := hI.entries entry hmem
  refine ⟨data, hrequested, ?_⟩
  cases data with
  | PublishQoS0 packet => cases hentry
  | _ => cases hentry; rfl

/-- A completion names a request that the hub has taken. -/
theorem requested_of_completion (hI : Known w)
    {event : Event} (hmem : event ∈ w.log) (ht : completes t event = true) :
    ∃ data, .requested data ∈ w.log ∧ data.id = t := by
  obtain ⟨older, hsub, told⟩ := hI.sources.told.of_mem hmem
  cases event with
  | user event =>
    obtain ⟨i, spec, msg, held, hreason, hmsg, rfl, _⟩ := told ⟨t, ht⟩
    rw [completes_event, beq_iff_eq] at ht
    rcases told_by_run hmsg with ⟨trace, rfl, rfl⟩ | ⟨trace, rfl, rfl⟩ |
      ⟨packetId, id, protocol, rfl, rfl⟩ | ⟨trace, rfl, rfl⟩ | ⟨trace, rfl, rfl⟩ <;> cases ht
    · cases hreason with
      | publishQos0 hrequested => exact ⟨_, hsub hrequested, rfl⟩
    · cases hreason with
      | publishQos1 haccepted => exact id_of_accepted hI (hsub haccepted)
    · cases hreason with
      | publishQos2Rel haccepted => exact id_of_accepted hI (hsub haccepted)
    · cases hreason with
      | subscribe haccepted => exact id_of_accepted hI (hsub haccepted)
    · cases hreason with
      | unsubscribe haccepted => exact id_of_accepted hI (hsub haccepted)
  | _ => cases ht

end Completions

/-- In every run of a client whose calls let `Id::id()` choose their trace ids, with
others of the process drawing from the same counter, clones of the client calling at
the same time, and a bus that may drop any event at any moment: (a) the requests that
the hub has taken and those that wait for it are those of the calls less what was
dropped of them, in the order in which they were dispatched, each once; they are all
exactly if none was dropped; (b) the ids drawn are distinct exactly as long as there
are no more than 2^32; (c) up to then no two calls share an id, and each completion
that the user gets names exactly one of the requests dispatched. -/
theorem completions_name_calls {options : MqttOptions} {protocol : Protocol} {d : Desk}
    (h : Reachable Desk.step Drawing (.init options protocol) d) :
    ((taken d.system.world.log ++ waiting d.system.world.bus).Sublist d.made ∧
      (taken d.system.world.log ++ waiting d.system.world.bus ++
        waiting d.system.lost).Perm d.made ∧
      (taken d.system.world.log ++ waiting d.system.world.bus = d.made ↔
        waiting d.system.lost = [])) ∧
    (d.drawn.Nodup ↔ d.drawn.length ≤ u32Size) ∧
    (d.drawn.length ≤ u32Size → ((d.made ++ d.underWay).map ClientData.id).Nodup ∧
      ∀ t, ∀ event ∈ d.system.world.log, completes t event = true →
        ∃! k : Nat, d.made[k]?.map ClientData.id = some t) := by
  have served := reachable_served h
  have counted := reachable_counted h
  have shares := served.shares
  refine ⟨⟨shares.order, shares.share, shares.eq_iff⟩, counted.nodup_iff, fun few => ?_⟩
  obtain ⟨spent, own⟩ := counted.own
  have distinct : ((d.made ++ d.underWay).map ClientData.id).Nodup :=
    (List.nodup_append.mp ((own.nodup_iff).mpr (counted.nodup_iff.mpr few))).1
  refine ⟨distinct, fun t event hmem ht => ?_⟩
  obtain ⟨data, hrequested, rfl⟩ := requested_of_completion served.known hmem ht
  have listed : data ∈ d.made := by
    refine shares.order.subset (List.mem_append_left _ ?_)
    exact List.mem_filterMap.mpr ⟨.requested data, List.mem_reverse.mpr hrequested, rfl⟩
  obtain ⟨k, hk⟩ := List.getElem?_of_mem listed
  rw [List.map_append] at distinct
  have made := (List.nodup_append.mp distinct).1
  refine ⟨k, by simp [hk], fun other hother => ?_⟩
  have there : (d.made.map ClientData.id)[other]? = some data.id := by
    rw [List.getElem?_map]
    exact hother
  have here : (d.made.map ClientData.id)[k]? = some data.id := by
    rw [List.getElem?_map, hk]
    rfl
  have bound := (List.getElem?_eq_some_iff.mp there).1
  exact (List.getElem?_inj bound made).mp (there.trans here.symm)

/-- Three calls at the same time, the later ones dispatched first, with a call of another
client between them. The hub's queue has two places and drops the third request. -/
def overtakenCall : List DeskAction :=
  [.system (.act (.hub (.connect 0))), .system (.act (.network 0 (.connected false))),
    .system (.act (.hub (.connecting 0))), .system (.act (.hub .load)),
    .system (.act (.hub .resend)), .call (.toSubscribe "a" .AtMostOnce), .drawElsewhere,
    .call (.publish "b" .AtMostOnce [] false), .call (.unsubscribe "c"), .dispatch 1, .dispatch 0,
    .dispatch 0, .system (.drop 3), .system (.act (.hub (.recv 1))),
    .system (.act (.task 0 .run)), .system (.act (.network 0 (.take 2 none))),
    .system (.act (.task 0 .receipt)), .system (.act (.task 0 .run))]

/-- The law in the state behind it: the completion names the publish. -/
theorem overtaken_call_named :
    ∃ d : Desk, (d.drawn = [0, 1, 2, 3] ∧ d.made.map ClientData.id = [2, 0, 3] ∧
        (waiting d.system.lost).map ClientData.id = [3] ∧
        d.system.world.log.any (completes 2) = true) ∧
      (taken d.system.world.log ++ waiting d.system.world.bus).Sublist d.made ∧
      ∃! k : Nat, d.made[k]?.map ClientData.id = some 2 := by
  obtain ⟨d, h, hat⟩ : ∃ d : Desk, Reachable Desk.step Drawing (.init ⟨60, true⟩ .V4) d ∧
      (d.drawn = [0, 1, 2, 3] ∧ d.made.map ClientData.id = [2, 0, 3] ∧
        (waiting d.system.lost).map ClientData.id = [3] ∧
        d.system.world.log.any (completes 2) = true) :=
    exists_of_guardedRun overtakenCall (by decide +kernel)
  obtain ⟨⟨order, _⟩, _, named⟩ := completions_name_calls h
  obtain ⟨event, hmem, ht⟩ := List.any_eq_true.mp hat.2.2.2
  have few : d.drawn.length ≤ u32Size := by
    rw [hat.1]
    decide
  exact ⟨d, hat, order, (named few).2 2 event hmem ht⟩

end Calls
