import ForMqttClient.PacketIds
import ForMqttClient.TaskRuns

/-!
# The QoS2 handshake of the sender

An entry of `client_data` goes through its two phases by `RecoverId`, which
names neither the phase nor the task. The history since the request was taken
in under its packet id tells which acknowledgements were received for it.
-/

namespace Handshake

open MqttData TaskHub HubSteps PacketIds Tasks System SystemSteps TaskRuns GuardedRuns

/-- The request that an event takes in under packet id `p`. -/
def requestUnder (p : PacketId) : Event → Option UnacknowledgedClientData
  | .accepted entry => if entry.packetId = p then some entry else none
  | _ => none

/-- The request that was taken in last under the id. -/
def latest (p : PacketId) (log : List Event) : Option UnacknowledgedClientData :=
  log.findSome? (requestUnder p)

/-- The history since then, newest first. -/
def current (p : PacketId) (log : List Event) : List Event :=
  log.takeWhile (fun event => (requestUnder p event).isNone)

/-- A task that was started with `spec` has received `ack`. -/
def Got (spec : TaskSpec) (ack : Ack) (log : List Event) : Prop :=
  ∃ i, .started i spec ∈ log ∧ .acked i ack ∈ log

/-- What a QoS2 entry needs to go on. -/
def confirmation : TaskSpec → Option Ack
  | .PublishQos2 trace => some (.PubRec trace.packetId)
  | .PublishQos2Rel packetId _ _ => some (.PubComp packetId)
  | _ => none

section History

variable {p : PacketId} {events log : List Event}

theorem latest_accepted (entry : UnacknowledgedClientData) (log : List Event) :
    latest entry.packetId (.accepted entry :: log) = some entry := by
  rw [latest, List.findSome?_cons, requestUnder, if_pos rfl]

theorem latest_append (hquiet : ∀ event ∈ events, requestUnder p event = none) :
    latest p (events ++ log) = latest p log := by
  have nothing : events.findSome? (requestUnder p) = none :=
    List.findSome?_eq_none_iff.mpr hquiet
  rw [latest, List.findSome?_append, nothing, Option.none_or, ← latest]

theorem current_append (hquiet : ∀ event ∈ events, requestUnder p event = none) :
    current p (events ++ log) = events ++ current p log :=
  List.takeWhile_append_of_pos (fun event hevent => by rw [hquiet event hevent]; rfl)

/-- What the history since the last request tells is new, or was told before
and the request is still the same. -/
theorem mem_current_append {event : Event} (h : event ∈ current p (events ++ log)) :
    event ∈ events ∨
      current p (events ++ log) = events ++ current p log ∧ event ∈ current p log := by
  by_cases hquiet : ∀ event ∈ events, requestUnder p event = none
  · have hsplit : current p (events ++ log) = events ++ current p log := current_append hquiet
    rw [hsplit] at h
    rcases List.mem_append.mp h with hnew | hold
    · exact .inl hnew
    · exact .inr ⟨hsplit, hold⟩
  · left
    induction events with
    | nil => exact absurd (fun _ h => absurd h List.not_mem_nil) hquiet
    | cons first rest ih =>
      rw [List.cons_append, current, List.takeWhile_cons] at h
      split at h
      · next hfirst =>
        rcases List.mem_cons.mp h with rfl | h
        · exact List.mem_cons_self
        · refine List.mem_cons_of_mem _ (ih h ?_)
          intro hrest
          apply hquiet
          intro event hevent
          rcases List.mem_cons.mp hevent with rfl | hevent
          · exact Option.isNone_iff_eq_none.mp hfirst
          · exact hrest event hevent
      · cases h

theorem Got.append {spec : TaskSpec} {ack : Ack} (h : Got spec ack log) (events : List Event) :
    Got spec ack (events ++ log) := by
  obtain ⟨i, hstarted, hacked⟩ := h
  exact ⟨i, List.mem_append_right _ hstarted, List.mem_append_right _ hacked⟩

end History

/-- The entry is the last request under its id; when it is a PUBREL entry, that
request was a QoS2 publish, and its task has received the PUBREC. -/
def Stands (log : List Event) : UnacknowledgedClientData → Prop
  | .PubRel p id protocol =>
    ∃ packet, latest p log = some (.PublishQoS2 packet) ∧ packet.packetId = p ∧
      packet.id = id ∧ packet.protocol = protocol ∧
      Got (.PublishQos2 packet) (.PubRec p) (current p log)
  | entry => latest entry.packetId log = some entry

theorem Stands.append {entry : UnacknowledgedClientData} {events log : List Event}
    (h : Stands log entry)
    (hquiet : ∀ event ∈ events, requestUnder entry.packetId event = none) :
    Stands (events ++ log) entry := by
  cases entry with
  | PubRel p id protocol =>
    obtain ⟨packet, hlatest, hp, hid, hprotocol, hgot⟩ := h
    refine ⟨packet, (latest_append hquiet).trans hlatest, hp, hid, hprotocol, ?_⟩
    have hsplit : current p (events ++ log) = events ++ current p log := current_append hquiet
    rw [hsplit]
    exact hgot.append events
  | _ => exact (latest_append hquiet).trans h

structure Shaken (w : World) : Prop where
  confirmed : ∀ p i spec ack, .started i spec ∈ current p w.log → confirmation spec = some ack →
    Unacked w i spec ∨ .acked i ack ∈ current p w.log
  stands : ∀ entry ∈ w.hub.clientData, Stands w.log entry
  gone : ∀ p packet, latest p w.log = some (.PublishQoS2 packet) →
    (∀ entry ∈ w.hub.clientData, entry.packetId ≠ p) →
    Got (.PublishQos2Rel p packet.id packet.protocol) (.PubComp p) (current p w.log)

def twoPhase : UnacknowledgedClientData → Bool
  | .PublishQoS2 _ => true
  | .PubRel _ _ _ => true
  | _ => false

/-- The worker is the task that was started for the entry as it stands. -/
def speaksFor (log : List Event) (entry : UnacknowledgedClientData) : Worker → Bool
  | .task i => decide (.started i entry.toAcknowledge ∈ current entry.packetId log)
  | _ => false

/-- A `RecoverId` that meets a QoS2 entry comes from a task that was started
for this entry in its present phase. -/
def recoversOwn (w : World) : Action → Bool
  | .hub (.recv j) =>
    match w.receive .hub j with
    | some (⟨sender, _, .hubMsg (.RecoverId p), _⟩, _) =>
      w.hub.clientData.all (fun entry =>
        !(twoPhase entry && entry.packetId == p) || speaksFor w.log entry sender)
    | _ => true
  | _ => true

section Steps

variable {w w' : World} {action : Action}

theorem confirmed_of_outside (hrouted : Routed w) (h : Moved w action w')
    (hhub : ∀ a, action ≠ .hub a) {events : List Event} (hlog : w'.log = events ++ w.log)
    {i : Nat} {spec : TaskSpec} {ack : Ack} (hack : confirmation spec = some ack)
    (hI : Unacked w i spec) : Unacked w' i spec ∨ .acked i ack ∈ events := by
  cases spec with
  | PublishQos2 trace =>
    cases hack
    rcases unacked_of_outside hrouted h hhub hlog rfl rfl hI with
      hwaits | ⟨got, htype, hpacketId, hacked⟩
    · exact .inl hwaits
    · cases got with
      | PubRec gotId => exact .inr (hpacketId ▸ hacked)
      | _ => cases htype
  | PublishQos2Rel packetId id protocol =>
    cases hack
    rcases unacked_of_outside hrouted h hhub hlog rfl rfl hI with
      hwaits | ⟨got, htype, hpacketId, hacked⟩
    · exact .inl hwaits
    · cases got with
      | PubComp gotId => exact .inr (hpacketId ▸ hacked)
      | _ => cases htype
  | _ => cases hack

theorem quiet_of_outside {event : Event} (h : Outside event) (p : PacketId) :
    requestUnder p event = none := by
  cases h <;> rfl

/-- A step that takes no request in: an entry is one of before, or a PUBREL
entry whose PUBREC has come; and a QoS2 entry goes once its PUBCOMP has come. -/
theorem Shaken.steady (hI : Shaken w) {events : List Event} (hlog : w'.log = events ++ w.log)
    (hquiet : ∀ p, ∀ event ∈ events, requestUnder p event = none)
    (hconfirmed : ∀ p i spec ack, .started i spec ∈ current p w'.log →
      confirmation spec = some ack → Unacked w' i spec ∨ .acked i ack ∈ current p w'.log)
    (hdata : ∀ entry ∈ w'.hub.clientData, entry ∈ w.hub.clientData ∨
      ∃ packet, .PublishQoS2 packet ∈ w.hub.clientData ∧
        entry = .PubRel packet.packetId packet.id packet.protocol ∧
        Got (.PublishQos2 packet) (.PubRec packet.packetId) (current packet.packetId w.log))
    (hgone : ∀ p packet, latest p w.log = some (.PublishQoS2 packet) →
      (∀ entry ∈ w'.hub.clientData, entry.packetId ≠ p) →
      (∀ entry ∈ w.hub.clientData, entry.packetId ≠ p) ∨
        Got (.PublishQos2Rel p packet.id packet.protocol) (.PubComp p) (current p w.log)) :
    Shaken w' := by
  have hcurrent : ∀ p, current p w'.log = events ++ current p w.log := by
    intro p
    rw [hlog]
    exact current_append (hquiet p)
  have hlatest : ∀ p, latest p w'.log = latest p w.log := by
    intro p
    rw [hlog]
    exact latest_append (hquiet p)
  constructor
  · exact hconfirmed
  · intro entry hentry
    rcases hdata entry hentry with hold | ⟨packet, hmem, rfl, hgot⟩
    · rw [hlog]
      exact (hI.stands entry hold).append (hquiet _)
    · have hstands : latest packet.packetId w.log = _ := hI.stands _ hmem
      refine ⟨packet, (hlatest _).trans hstands, rfl, rfl, rfl, ?_⟩
      rw [hcurrent]
      exact hgot.append events
  · intro p packet hlast hempty
    rw [hlatest] at hlast
    rw [hcurrent]
    rcases hgone p packet hlast hempty with hold | hgot
    · exact (hI.gone p packet hlast hold).append events
    · exact hgot.append events

theorem shaken_of_outside (hrouted : Routed w) (h : Moved w action w')
    (hhub : ∀ a, action ≠ .hub a) (hI : Shaken w) : Shaken w' := by
  obtain ⟨events, hlog, houtside⟩ := log_outside h hhub
  have hsame := (hub_of_moved h hhub).1
  have hquiet : ∀ p, ∀ event ∈ events, requestUnder p event = none :=
    fun p event hevent => quiet_of_outside (houtside event hevent) p
  refine hI.steady hlog hquiet ?_ ?_ ?_
  · intro p i spec ack hstarted hack
    have hcurrent : current p w'.log = events ++ current p w.log := by
      rw [hlog]
      exact current_append (hquiet p)
    rw [hcurrent] at hstarted ⊢
    rcases List.mem_append.mp hstarted with hnew | hold
    · cases houtside _ hnew
    · rcases hI.confirmed p i spec ack hold hack with hwaits | hacked
      · rcases confirmed_of_outside hrouted h hhub hlog hack hwaits with hwaits' | hacked
        · exact .inl hwaits'
        · exact .inr (List.mem_append_left _ hacked)
      · exact .inr (List.mem_append_right _ hacked)
  · intro entry hentry
    exact .inl (hsame ▸ hentry)
  · intro p packet _ hempty
    exact .inl (hsame ▸ hempty)

theorem confirmed_of_hub (hrouted : Routed w) {a : HubAction} (h : HubMoved w a w')
    {message : Nat} {outputs : List Output} {events : List Event}
    (htasks : w'.tasks = w.tasks ++ (startedSpecs outputs).map Task.init)
    (hlog : w'.log = events ++ w.log)
    (hinside : ∀ event ∈ events, Inside w.tasks.length message outputs event) (hI : Shaken w)
    {p : PacketId} {i : Nat} {spec : TaskSpec} {ack : Ack}
    (hstarted : .started i spec ∈ current p w'.log) (hack : confirmation spec = some ack) :
    Unacked w' i spec ∨ .acked i ack ∈ current p w'.log := by
  rw [hlog] at hstarted ⊢
  rcases mem_current_append hstarted with hnew | ⟨hsplit, hold⟩
  · obtain ⟨hi, hget⟩ := task_of_inside htasks (hinside _ hnew)
    exact .inl (unacked_of_started hrouted h hi hget)
  · rw [hsplit]
    rcases hI.confirmed p i spec ack hold hack with hwaits | hacked
    · exact .inl (unacked_of_hub h hwaits)
    · exact .inr (List.mem_append_right _ hacked)

/-- A new request under an id that no entry holds. -/
theorem Shaken.accept (hI : Shaken w) {entry : UnacknowledgedClientData} {events : List Event}
    (hlog : w'.log = events ++ w.log)
    (hquiet : ∀ p, p ≠ entry.packetId → ∀ event ∈ events, requestUnder p event = none)
    (hconfirmed : ∀ p i spec ack, .started i spec ∈ current p w'.log →
      confirmation spec = some ack → Unacked w' i spec ∨ .acked i ack ∈ current p w'.log)
    (hdata : w'.hub.clientData = w.hub.clientData ++ [entry])
    (hunused : ∀ old ∈ w.hub.clientData, old.packetId ≠ entry.packetId)
    (hnow : Stands w'.log entry) : Shaken w' := by
  constructor
  · exact hconfirmed
  · intro old hold
    rw [hdata] at hold
    rcases List.mem_append.mp hold with hold | hnew
    · rw [hlog]
      exact (hI.stands old hold).append (hquiet _ (hunused old hold))
    · rw [List.mem_singleton.mp hnew]
      exact hnow
  · intro p packet hlast hempty
    rw [hdata] at hempty
    have hp : p ≠ entry.packetId := by
      rintro rfl
      exact hempty entry (List.mem_append_right _ (List.mem_singleton_self _)) rfl
    have hcurrent : current p (events ++ w.log) = events ++ current p w.log :=
      current_append (hquiet p hp)
    have hlatest : latest p (events ++ w.log) = latest p w.log := latest_append (hquiet p hp)
    rw [hlog, hlatest] at hlast
    rw [hlog, hcurrent]
    have hnone : ∀ old ∈ w.hub.clientData, old.packetId ≠ p :=
      fun old hold => hempty old (List.mem_append_left _ hold)
    exact (hI.gone p packet hlast hnone).append events

/-- The task whose `RecoverId` the hub takes has received what its entry needs. -/
theorem got_of_recover (hI : Shaken w) {j message : Nat} {sender : Worker} {p : PacketId}
    {rest : List Envelope} (hok : recoversOwn w (.hub (.recv j)) = true)
    (htake : PairFifo.take Envelope.channel w.bus j =
      some (⟨sender, .hub, .hubMsg (.RecoverId p), message⟩, rest))
    {entry : UnacknowledgedClientData} (hmem : entry ∈ w.hub.clientData)
    (hid : entry.packetId = p) (htwo : twoPhase entry = true) {ack : Ack}
    (hack : confirmation entry.toAcknowledge = some ack) :
    Got entry.toAcknowledge ack (current p w.log) := by
  subst hid
  have hspeaks : speaksFor w.log entry sender = true := by
    simp only [recoversOwn, receive_of_take htake, List.all_eq_true] at hok
    simpa [htwo] using hok entry hmem
  cases sender with
  | task i =>
    have hstarted : .started i entry.toAcknowledge ∈ current entry.packetId w.log :=
      of_decide_eq_true hspeaks
    refine ⟨i, hstarted, ?_⟩
    rcases hI.confirmed _ i _ ack hstarted hack with hwaits | hacked
    · have hqueue : queuedFrom w.bus i = _ := queuedFrom_take htake
      rw [hwaits.1] at hqueue
      cases hqueue
    · exact hacked
  | _ => cases hspeaks

/-- A QoS2 publish whose entry is removed has had its PUBCOMP. -/
theorem gone_of_recover (hI : Shaken w) {j message : Nat} {sender : Worker} {packetId : PacketId}
    {rest : List Envelope} (hok : recoversOwn w (.hub (.recv j)) = true)
    (htake : PairFifo.take Envelope.channel w.bus j =
      some (⟨sender, .hub, .hubMsg (.RecoverId packetId), message⟩, rest))
    {index : Nat} {entry : UnacknowledgedClientData}
    (hentry : w.hub.clientData[index]? = some entry) (hid : entry.packetId = packetId)
    (hdone : entry.acknowledge.2 = true) {p : PacketId} {packet : TracePublishQos .ExactlyOnce}
    (hlast : latest p w.log = some (.PublishQoS2 packet))
    (hempty : ∀ old ∈ w.hub.clientData.eraseIdx index, old.packetId ≠ p) :
    (∀ old ∈ w.hub.clientData, old.packetId ≠ p) ∨
      Got (.PublishQos2Rel p packet.id packet.protocol) (.PubComp p) (current p w.log) := by
  have hmem := List.mem_of_getElem? hentry
  by_cases hp : p = packetId
  · right
    subst hp
    have hstands := hI.stands entry hmem
    cases entry with
    | PubRel q id protocol =>
      have hgot : Got (.PublishQos2Rel q id protocol) (.PubComp q) (current p w.log) :=
        got_of_recover hI hok htake hmem hid rfl rfl
      obtain ⟨packet', hlatest, _, rfl, rfl, _⟩ := hstands
      obtain rfl : q = p := hid
      cases hlast.symm.trans hlatest
      exact hgot
    | PublishQoS2 packet' => cases hdone
    | _ =>
      rw [← hid] at hlast
      cases hlast.symm.trans hstands
  · left
    intro old hold heq
    obtain ⟨k, hk⟩ := List.getElem?_of_mem hold
    by_cases hki : k = index
    · subst hki
      cases hentry.symm.trans hk
      exact hp (heq.symm.trans hid)
    · exact hempty old (List.mem_eraseIdx_iff_getElem?.mpr ⟨k, hki, hk⟩) heq

/-- A request that has just been taken in stands. -/
theorem stands_of_accepted {entry : UnacknowledgedClientData}
    (hfresh : ∀ packetId id protocol, entry ≠ .PubRel packetId id protocol) (i : Nat)
    (spec : TaskSpec) (data : ClientData) (log : List Event) :
    Stands (.started i spec :: .accepted entry :: .requested data :: log) entry := by
  have hnow : latest entry.packetId
      (.started i spec :: .accepted entry :: .requested data :: log) = some entry :=
    latest_accepted entry _
  cases entry with
  | PubRel packetId id protocol => exact absurd rfl (hfresh packetId id protocol)
  | _ => exact hnow

/-- The release of a publish leaves an entry under every id that had one. -/
theorem empty_before_release {hub : Hub} {index : Nat} {packet : TracePublishQos .ExactlyOnce}
    (hentry : hub.clientData[index]? = some (.PublishQoS2 packet)) {p : PacketId}
    (hempty : ∀ entry ∈
      hub.clientData.set index (.PubRel packet.packetId packet.id packet.protocol),
        entry.packetId ≠ p) :
    ∀ entry ∈ hub.clientData, entry.packetId ≠ p := by
  have hmap : (hub.clientData.set index
      (.PubRel packet.packetId packet.id packet.protocol)).map (·.packetId) =
        hub.clientData.map (·.packetId) := entryIds_set hentry rfl
  intro old hold heq
  have hin : p ∈ hub.clientData.map (·.packetId) := heq ▸ List.mem_map_of_mem hold
  rw [← hmap] at hin
  obtain ⟨after, hafter, hafterId⟩ := List.mem_map.mp hin
  exact hempty after hafter hafterId

theorem shaken_of_hub (hrouted : Routed w) (hids : IdsConserved w.hub) {a : HubAction}
    (hok : recoversOwn w (.hub a) = true) (h : HubMoved w a w') (hI : Shaken w) :
    Shaken w' := by
  have hmoved := h
  cases h with
  | @intro input message taken hub outputs htakes hmove =>
    obtain ⟨events, hlog, hinside⟩ := log_of_takes htakes hub outputs
    have htasks := tasks_of_takes htakes hub outputs
    have hhub := (applyOutputs_grown { taken with hub := hub } message outputs).hub
    have hentries := congrArg Hub.clientData hhub
    have hconfirmed := fun p i spec ack => @confirmed_of_hub w _ hrouted a hmoved message outputs
      events htasks hlog hinside hI p i spec ack
    have hquiet (hnone : ∀ entry, .accepted entry ∉ outputs) (p : PacketId) :
        ∀ event ∈ events, requestUnder p event = none := by
      intro event hevent
      cases hinside event hevent with
      | accepted hmem => exact absurd hmem (hnone _)
      | _ => rfl
    cases hmove with
    | @accept data entry pool hat hid hpop hfresh =>
      have hunused := unused_of_pop hids hpop
      cases htakes with
      | clientData htake =>
        refine hI.accept hlog ?_ hconfirmed hentries hunused ?_
        · intro p hp event hevent
          cases hinside event hevent with
          | @accepted other hmem =>
            obtain rfl : other = entry := by simpa using hmem
            exact if_neg (Ne.symm hp)
          | _ => rfl
        · exact stands_of_accepted hfresh _ _ data w.log
    | @recoverDone packetId index entry pool hat hfind hentry hdone hpush =>
      cases htakes with
      | hubMsg htake =>
        refine hI.steady hlog (hquiet (by simp)) hconfirmed ?_ ?_
        · intro old hold
          rw [hentries] at hold
          exact .inl (List.mem_of_mem_eraseIdx hold)
        · intro p packet hlast hempty
          rw [hentries] at hempty
          exact gone_of_recover hI hok htake hentry (found_packetId hfind hentry) hdone hlast hempty
    | @recoverRel packetId index packet hat hfind hentry =>
      have hid : packet.packetId = packetId := found_packetId hfind hentry
      have hmem := List.mem_of_getElem? hentry
      cases htakes with
      | hubMsg htake =>
        refine hI.steady hlog (hquiet (by simp)) hconfirmed ?_ ?_
        · intro old hold
          rw [hentries] at hold
          rcases List.mem_or_eq_of_mem_set hold with hold | rfl
          · exact .inl hold
          · refine .inr ⟨packet, hmem, rfl, ?_⟩
            subst hid
            exact got_of_recover hI hok htake hmem rfl rfl rfl
        · intro q other hlast hempty
          rw [hentries] at hempty
          exact .inl (empty_before_release hentry hempty)
    | _ =>
      exact hI.steady hlog (hquiet (by simp)) hconfirmed
        (fun _ hentry => .inl (hentries ▸ hentry)) (fun _ _ _ hempty => .inl (hentries ▸ hempty))

end Steps

structure Background (w : World) : Prop where
  routed : Routed w
  ids : IdsConserved w.hub

theorem background_of_moved {w w' : World} {action : Action} (h : Moved w action w')
    (hI : Background w) : Background w' := by
  refine ⟨routed_of_moved h hI.routed, ?_⟩
  rcases hub_or_not h with ⟨a, rfl, hmoved⟩ | notHub
  · cases hmoved with
    | @intro input message taken hub outputs htakes hmove =>
      have hhub : (World.applyOutputs message { taken with hub := hub } outputs).hub = hub :=
        (applyOutputs_grown { taken with hub := hub } message outputs).hub
      rw [hhub]
      exact (idMove_of_move hI.ids hmove).conserved hI.ids
  · rw [(hub_of_moved h notHub).1]
    exact hI.ids

theorem reachable_shaken {options : MqttOptions} {protocol : Protocol} {w : World}
    (h : Reachable World.step (fun w a => recoversOwn w a = true)
      (.init options protocol) w) : Background w ∧ Shaken w := by
  refine h.invariant (I := fun w => Background w ∧ Shaken w) ⟨⟨⟨?_, ?_⟩, ?_⟩, ⟨?_, ?_, ?_⟩⟩ ?_
  · intro e he
    cases he
  · intro e he
    cases he
  · exact initial_conserved options protocol
  · intro p i spec ack hstarted
    cases hstarted
  · intro entry hentry
    cases hentry
  · intro p packet hlast
    cases hlast
  · intro w action w' _ ih hok hstep
    have hmoved := moved_of_step hstep
    refine ⟨background_of_moved hmoved ih.1, ?_⟩
    rcases hub_or_not hmoved with ⟨a, rfl, hhub⟩ | notHub
    · exact shaken_of_hub ih.1.routed ih.1.ids hok hhub ih.2
    · exact shaken_of_outside ih.1.routed hmoved notHub ih.2

/-- In every run in which a `RecoverId` that meets a QoS2 entry comes from a
task started for this entry in its present phase: a PUBREL entry stands for
the QoS2 publish taken in last under its id, whose task has received the
PUBREC; and when no entry is left of a QoS2 publish, the task of its PUBREL has
received the PUBCOMP. -/
theorem handshake_kept {options : MqttOptions} {protocol : Protocol} {w : World}
    (h : Reachable World.step (fun w a => recoversOwn w a = true)
      (.init options protocol) w) :
    (∀ p id protocol, .PubRel p id protocol ∈ w.hub.clientData →
      ∃ packet, latest p w.log = some (.PublishQoS2 packet) ∧
        Got (.PublishQos2 packet) (.PubRec p) (current p w.log)) ∧
    (∀ p packet, latest p w.log = some (.PublishQoS2 packet) →
      (∀ entry ∈ w.hub.clientData, entry.packetId ≠ p) →
      Got (.PublishQos2Rel p packet.id packet.protocol) (.PubComp p) (current p w.log)) := by
  have hI := (reachable_shaken h).2
  constructor
  · intro p id protocol hmem
    obtain ⟨packet, hlatest, _, _, _, hgot⟩ := hI.stands _ hmem
    exact ⟨packet, hlatest, hgot⟩
  · exact hI.gone

/-- The packets that an acknowledgement of the broker answers. -/
def asks (ack : Ack) : Outgoing → Bool
  | .Publish publish =>
    match ack with
    | .PubAck packetId => publish.qos == .AtLeastOnce packetId
    | .PubRec packetId => publish.qos == .ExactlyOnce packetId
    | _ => false
  | .PubRec packetId => ack == .PubRel packetId
  | .PubRel packetId => ack == .PubComp packetId
  | .Subscribe subscribe =>
    match ack with
    | .SubAck packetId _ => subscribe.packetId == packetId
    | _ => false
  | .Unsubscribe unsubscribe =>
    match ack with
    | .UnsubAck packetId _ => unsubscribe.packetId == packetId
    | _ => false
  | _ => false

/-- The broker acknowledges each packet that it has got on a connection at
most once, and nothing else. -/
def brokerAnswers (w : World) : Action → Bool
  | .broker n (.send (.Ack ack) _) =>
    w.log.countP (fun event =>
      match event with
      | .brokerSent m (.Ack other) _ =>
        m == n && other.type == ack.type && other.packetId == ack.packetId
      | _ => false) <
    w.log.countP (fun event =>
      match event with
      | .brokerGot m packet => m == n && asks ack packet
      | _ => false)
  | _ => true

/-- The hub takes the `RecoverId` of its only entry, which is done. -/
theorem step_recover_last {w : World} (hids : IdsConserved w.hub)
    (hat : At w.hub .Connected .loop) {entry : UnacknowledgedClientData}
    (hdata : w.hub.clientData = [entry]) (hdone : entry.acknowledge.2 = true)
    {j message : Nat} {sender : Worker}
    (htake : (PairFifo.take Envelope.channel w.bus j).map Prod.fst =
      some ⟨sender, .hub, .hubMsg (.RecoverId entry.packetId), message⟩) :
    ∃ w', w.step (.hub (.recv j)) = some w' ∧
      w'.log = .hubTook sender (.RecoverId entry.packetId) :: w.log ∧ w'.hub.clientData = [] ∧
      w'.hub.pool.items = w.hub.pool.items ++ [entry.packetId] := by
  obtain ⟨⟨_, rest⟩, taken, rfl⟩ := Option.map_eq_some_iff.mp htake
  obtain ⟨pool, recovered, hitems⟩ := recoverId_completing hids hdata hdone
  have stepped := step_recv hat taken
  rw [Hub.dealHubMsg, recovered] at stepped
  exact ⟨_, stepped, rfl, rfl, hitems⟩

theorem reachable_background {ok : World → Action → Prop} {options : MqttOptions}
    {protocol : Protocol} {w : World} (h : Reachable World.step ok (.init options protocol) w) :
    Background w := by
  refine h.invariant ⟨⟨?_, ?_⟩, initial_conserved options protocol⟩ ?_
  · exact fun _ he => absurd he List.not_mem_nil
  · exact fun _ he => absurd he List.not_mem_nil
  · intro w a w' _ hI _ hstep
    exact background_of_moved (moved_of_step hstep) hI

/-- After a reconnection the old and the new task of a QoS2 publish take the
one PUBREC, and the second `RecoverId` removes the entry: the broker has
received no PUBREL and has sent no PUBCOMP. -/
theorem removed_without_pubcomp :
    ∃ w, Reachable World.step (fun w a => brokerAnswers w a = true) (.init ⟨60, true⟩ .V4) w ∧
      (latest 1 w.log = some (.PublishQoS2 ⟨.V4, 7, "a", 1, [], false⟩) ∧
        w.hub.clientData = [] ∧ w.hub.pool.items.getLast? = some 1 ∧
        w.log.all (fun event =>
          match event with
          | .acked _ (.PubComp _) | .brokerSent _ (.Ack (.PubComp _)) _ => false
          | .brokerGot _ (.PubRel _) => false
          | _ => true) = true) := by
  obtain ⟨w, hreach, hdata, hdraw, hstate, hposition, htake, hlast, hlog⟩ :
      ∃ w, Reachable World.step (fun w a => brokerAnswers w a = true) (.init ⟨60, true⟩ .V4) w ∧
        w.hub.clientData = [.PubRel 1 7 .V4] ∧ w.hub.drawing = false ∧
        w.hub.state = .Connected ∧ w.hub.position = .loop ∧
        (PairFifo.take Envelope.channel w.bus 3).map Prod.fst =
          some ⟨.task 1, .hub, .hubMsg (.RecoverId 1), 0⟩ ∧
        latest 1 w.log = some (.PublishQoS2 ⟨.V4, 7, "a", 1, [], false⟩) ∧
        w.log.all (fun event =>
          match event with
          | .acked _ (.PubComp _) | .brokerSent _ (.Ack (.PubComp _)) _ => false
          | .brokerGot _ (.PubRel _) => false
          | _ => true) = true :=
    exists_of_guardedRun
      [.hub (.connect 0), .network 0 (.connected false), .hub (.connecting 0), .hub .load,
        .hub .resend,
        .request (.PublishQoS2 (.init .ExactlyOnce "a" [] false .V4 7)), .hub (.recv 1),
        .task 0 .run, .network 0 (.take 1 none), .task 0 .receipt,
        .network 0 (.readErr "read 0 byte from network"), .hub (.network 1), .hub .disconnect,
        .hub (.connect 0), .network 1 (.connected false), .hub (.connecting 2), .hub .load,
        .hub .resend, .hub .resend,
        .task 1 .run, .network 1 (.take 3 none), .task 1 .receipt,
        .broker 1 .recv, .broker 1 (.send (.Ack (.PubRec 1)) 0), .network 1 .read,
        .task 0 (.ack 3), .task 1 (.ack 3), .task 0 .run, .task 1 .run, .hub (.recv 3)]
      (by decide +kernel)
  obtain ⟨w', stepped, log, entries, items⟩ := step_recover_last
    (reachable_background hreach).ids ⟨hdraw, hstate, hposition⟩ hdata rfl htake
  refine ⟨w', hreach.next rfl stepped, ?_, entries, ?_, ?_⟩
  · rw [log]
    exact hlast
  · rw [items]
    exact List.getLast?_concat
  · rw [log]
    exact hlog

/-- The law at the end of a whole handshake. -/
theorem handshake_kept_after_pubcomp :
    ∃ w, guardedRun World.step (fun w a => recoversOwn w a = true) (.init ⟨60, true⟩ .V4)
        [.hub (.connect 0), .network 0 (.connected false), .hub (.connecting 0), .hub .load,
          .hub .resend,
          .request (.PublishQoS2 (.init .ExactlyOnce "a" [] false .V4 7)), .hub (.recv 1),
          .task 0 .run, .network 0 (.take 1 none), .task 0 .receipt,
          .broker 0 .recv, .broker 0 (.send (.Ack (.PubRec 1)) 0), .network 0 .read,
          .task 0 (.ack 1), .task 0 .run, .hub (.recv 1),
          .task 1 .run, .network 0 (.take 1 none), .task 1 .receipt,
          .broker 0 .recv, .broker 0 (.send (.Ack (.PubComp 1)) 0), .network 0 .read,
          .task 1 (.ack 1), .task 1 .run, .hub (.recv 1)] = some w ∧
      ∀ p packet, latest p w.log = some (.PublishQoS2 packet) →
        (∀ entry ∈ w.hub.clientData, entry.packetId ≠ p) →
        Got (.PublishQos2Rel p packet.id packet.protocol) (.PubComp p) (current p w.log) := by
  obtain ⟨w, hrun, _⟩ : ∃ w, guardedRun World.step (fun w a => recoversOwn w a = true)
      (.init ⟨60, true⟩ .V4)
      ([.hub (.connect 0), .network 0 (.connected false), .hub (.connecting 0), .hub .load,
          .hub .resend,
          .request (.PublishQoS2 (.init .ExactlyOnce "a" [] false .V4 7)), .hub (.recv 1),
          .task 0 .run, .network 0 (.take 1 none), .task 0 .receipt,
          .broker 0 .recv, .broker 0 (.send (.Ack (.PubRec 1)) 0), .network 0 .read,
          .task 0 (.ack 1), .task 0 .run, .hub (.recv 1),
          .task 1 .run, .network 0 (.take 1 none), .task 1 .receipt,
          .broker 0 .recv, .broker 0 (.send (.Ack (.PubComp 1)) 0), .network 0 .read,
          .task 1 (.ack 1), .task 1 .run] ++ [.hub (.recv 1)]) = some w ∧ True := by
    refine end_of_parts (Q := fun w => w.hub.clientData = [.PubRel 1 7 .V4] ∧
      w.hub.drawing = false ∧ w.hub.state = .Connected ∧ w.hub.position = .loop ∧
      (PairFifo.take Envelope.channel w.bus 1).map Prod.fst =
        some ⟨.task 1, .hub, .hubMsg (.RecoverId 1), 0⟩ ∧
      recoversOwn w (.hub (.recv 1)) = true) _ _ (by decide +kernel) ?_
    rintro w hreach ⟨hdata, hdraw, hstate, hposition, htake, hown⟩
    obtain ⟨w', stepped, _⟩ := step_recover_last
      (reachable_background hreach).ids ⟨hdraw, hstate, hposition⟩ hdata rfl htake
    exact ⟨w', by simp only [guardedRun, hown, if_true, stepped, Option.bind_some], trivial⟩
  exact ⟨w, hrun, (handshake_kept (reachable_of_guardedRun .start hrun)).2⟩

end Handshake
