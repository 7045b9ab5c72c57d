import ForMqttClient.Tally
import ForMqttClient.TaskRuns
import Mathlib.Data.List.Nodup

/-!
# One completion event per request

Completion events are sent by the tasks. For each trace id the events already
sent and those that live tasks still owe are counted together; a
reconnection starts another task for every entry, so the sum is kept at one
only under a condition on the resends.
-/

namespace Completions

open MqttData TaskHub HubSteps Tasks System SystemSteps TaskRuns GuardedRuns Tally

/-- The event tells the user that the request with trace id `t` is complete. -/
def completes (t : TraceId) : Event → Bool
  | .user (.PublishSuccess id) => id == t
  | .user (.SubscribeAck ack) => ack.id == t
  | .user (.UnsubscribeAck ack) => ack.id == t
  | _ => false

/-- The completion events of `t` in a history. -/
def sent (t : TraceId) (log : List Event) : Nat := log.countP (completes t)

def reports (t : TraceId) : Instr → Bool
  | .txToUser msg => msg.id == t
  | _ => false

/-- The completion events of `t` that a task may still send. -/
def owes (t : TraceId) (task : Tasks.Task) : Nat := task.prog.countP (reports t)

def account (t : TraceId) (w : World) : Nat := sent t w.log + tally (owes t) w.tasks

/-- The request with trace id `t` was taken by the hub. -/
def requestedIn (t : TraceId) (log : List Event) : Bool :=
  log.any (fun event => match event with | .requested data => data.id == t | _ => false)

/-- The entries whose task completes the request. -/
def completing : UnacknowledgedClientData → Bool
  | .PublishQoS2 _ => false
  | _ => true

/-- Trace ids are distinct, and an entry whose task completes the request is
resent only when no such event was sent and no task is left to send one. -/
def resendsAlone (w : World) : Action → Bool
  | .hub (.recv j) =>
    match w.receive .hub j with
    | some (⟨_, _, .clientData data, _⟩, _) => !requestedIn data.id w.log
    | _ => true
  | .hub .resend =>
    match w.hub.position with
    | .resending next =>
      match w.hub.clientData[next]? with
      | some entry => !completing entry || account entry.id w = 0
      | none => true
    | _ => true
  | _ => true

/-- The trace id of the completion event at the end of a `run`. -/
def completedId : TaskSpec → Option TraceId
  | .PublishQos0 trace => some trace.id
  | .PublishQos1 trace => some trace.id
  | .PublishQos2Rel _ id _ => some id
  | .Subscribe trace => some trace.id
  | .Unsubscribe trace => some trace.id
  | _ => none

theorem completes_event (t : TraceId) (msg : UserMsg) (ack : Option Ack) :
    completes t (.user (msg.event ack)) = (msg.id == t) := by
  cases msg <;> rfl

theorem owes_init (t : TraceId) (spec : TaskSpec) :
    owes t (.init spec) = if completedId spec = some t then 1 else 0 := by
  cases spec <;>
    simp [owes, reports, Task.init, TaskSpec.run, completedId, transmitPublish, UserMsg.id,
      List.countP_cons]

theorem completedId_toAcknowledge (entry : UnacknowledgedClientData) :
    completedId entry.toAcknowledge = if completing entry then some entry.id else none := by
  cases entry <;> rfl

structure Accounts (w : World) : Prop where
  once : ∀ t, account t w ≤ 1
  none : ∀ t, requestedIn t w.log = false → account t w = 0
  known : ∀ entry ∈ w.hub.clientData, requestedIn entry.id w.log = true
  unique : (w.hub.clientData.map (·.id)).Nodup
  held : ∀ packet, .PublishQoS2 packet ∈ w.hub.clientData → account packet.id w = 0

section Steps

variable {w w' : World} {action : Action} {t : TraceId}

theorem sent_append (events log : List Event) :
    sent t (events ++ log) = sent t events + sent t log := List.countP_append

theorem requestedIn_append (events log : List Event) :
    requestedIn t (events ++ log) = (requestedIn t events || requestedIn t log) :=
  List.any_append

/-- A task sends what it owes, or drops it. -/
theorem account_of_taskMoved {i : Nat} {task : Tasks.Task} {a : TaskAction}
    (hget : w.tasks[i]? = some task) (h : TaskMoved w i task a w') :
    account t w' ≤ account t w := by
  have keeps {after : Tasks.Task} (hlog : sent t w'.log = sent t w.log)
      (htasks : w'.tasks = w.tasks.set i after) (hprog : after.prog <:+ task.prog) :
      account t w' ≤ account t w := by
    have less : owes t after ≤ owes t task := hprog.sublist.countP_le
    have := tally_set_le hget less
    rw [account, account, hlog, htasks]
    omega
  cases h with
  | txToUser hphase hprog =>
    rename_i msg rest
    have paid : sent t (.user (msg.event task.ack) :: w.log) =
        sent t w.log + if msg.id = t then 1 else 0 := by
      simp [sent, List.countP_cons, completes_event]
    have owed : owes t task = owes t { task with prog := rest } + if msg.id = t then 1 else 0 := by
      simp [owes, reports, hprog, List.countP_cons]
    have trade := tally_set (f := owes t) (b := { task with prog := rest }) hget
    change sent t (.user (msg.event task.ack) :: w.log) +
      tally (owes t) (w.tasks.set i { task with prog := rest }) ≤ account t w
    rw [paid, account]
    omega
  | sendFirst hphase hprog => exact keeps rfl rfl List.suffix_rfl
  | sendOnly hphase hprog => exact keeps rfl rfl List.suffix_rfl
  | sendAgain hphase hprog => exact keeps rfl rfl List.suffix_rfl
  | transmitted hphase hprog hdone => exact keeps rfl rfl List.suffix_rfl
  | died hphase hlost => exact keeps rfl rfl List.nil_suffix
  | dispatch hphase hprog => exact keeps rfl rfl (hprog ▸ List.suffix_cons _ _)
  | sent hphase hprog hdone => exact keeps rfl rfl (hprog ▸ List.suffix_cons _ _)
  | acked hphase hprog htake hrel => exact keeps rfl rfl (hprog ▸ List.suffix_cons _ _)
  | skipped hphase hprog htake hrel => exact Nat.le_refl _

theorem startedSpecs_of_move {keepAliveId : Nat} {hub hub' : Hub} {input : HubInput}
    {outputs : List Output} (h : Move keepAliveId hub input hub' outputs) :
    (startedSpecs outputs).length ≤ 1 := by
  cases h <;> simp [startedSpecs]

/-- The hub itself tells the user nothing about the end of a request. -/
theorem completes_of_inside {keepAliveId first message : Nat} {hub hub' : Hub} {input : HubInput}
    {outputs : List Output} (hmove : Move keepAliveId hub input hub' outputs) {event : Event}
    (h : Inside first message outputs event) : completes t event = false := by
  cases h with
  | user hmem => cases hmove <;> simp at hmem <;> subst hmem <;> rfl
  | _ => rfl

theorem requestedIn_of_suffix {log log' : List Event} (h : log <:+ log')
    (hrequested : requestedIn t log = true) : requestedIn t log' = true := by
  obtain ⟨events, rfl⟩ := h
  rw [requestedIn_append, hrequested, Bool.or_true]

/-- What a step of the hub does to the accounts: it sends nothing, and it
starts at most one task. -/
structure Started (w w' : World) (specs : List TaskSpec) : Prop where
  sent : ∀ t, sent t w'.log = sent t w.log
  log : w.log <:+ w'.log
  tasks : w'.tasks = w.tasks ++ specs.map Task.init
  single : specs.length ≤ 1

theorem started_of_hub {a : HubAction} {input : HubInput} {message : Nat} {taken : World}
    {hub : Hub} {outputs : List Output} (htakes : Takes w a input message taken)
    (hmove : Move w.keepAliveId w.hub input hub outputs) :
    Started w (World.applyOutputs message { taken with hub := hub } outputs)
      (startedSpecs outputs) := by
  obtain ⟨events, hlog, hinside⟩ := log_of_takes htakes hub outputs
  refine ⟨?_, ⟨events, hlog.symm⟩, tasks_of_takes htakes hub outputs, startedSpecs_of_move hmove⟩
  intro t
  have silent : sent t events = 0 := by
    rw [sent, List.countP_eq_zero]
    intro event hevent
    simp [completes_of_inside hmove (hinside event hevent)]
  rw [hlog, sent_append, silent, Nat.zero_add]

theorem Started.account_eq {specs : List TaskSpec} (hstep : Started w w' specs) (t : TraceId) :
    account t w' = account t w + tally (owes t) (specs.map Task.init) := by
  rw [account, account, hstep.sent, hstep.tasks, tally_append, Nat.add_assoc]

/-- The task that is started owes at most one event. -/
theorem Started.added {specs : List TaskSpec} (hstep : Started w w' specs) (t : TraceId) :
    account t w' = account t w ∨
      account t w' = account t w + 1 ∧ ∃ spec ∈ specs, completedId spec = some t := by
  rw [hstep.account_eq]
  have single := hstep.single
  cases specs with
  | nil => exact .inl rfl
  | cons spec rest =>
    obtain rfl := List.eq_nil_of_length_eq_zero (Nat.le_zero.mp (Nat.le_of_succ_le_succ single))
    rw [List.map_singleton, tally_singleton, owes_init]
    by_cases hspec : completedId spec = some t
    · rw [if_pos hspec]
      exact .inr ⟨rfl, spec, List.mem_singleton_self spec, hspec⟩
    · rw [if_neg hspec]
      exact .inl rfl

theorem Started.requested {specs : List TaskSpec} (hstep : Started w w' specs)
    (h : requestedIn t w.log = true) : requestedIn t w'.log = true :=
  requestedIn_of_suffix hstep.log h

theorem Started.not_requested {specs : List TaskSpec} (hstep : Started w w' specs)
    (h : requestedIn t w'.log = false) : requestedIn t w.log = false := by
  rw [← Bool.not_eq_true] at h ⊢
  exact fun before => h (hstep.requested before)

/-- The accounts after a step of the hub: the task that it starts may complete
a request of which nothing was sent and nothing is owed, and which no QoS2
entry holds. -/
theorem Accounts.grow (hI : Accounts w) {specs : List TaskSpec} (hstep : Started w w' specs)
    (hnew : ∀ spec ∈ specs, ∀ t, completedId spec = some t → account t w = 0 ∧
      requestedIn t w'.log = true ∧
      ∀ packet, .PublishQoS2 packet ∈ w'.hub.clientData → packet.id ≠ t)
    (hknown : ∀ entry ∈ w'.hub.clientData, requestedIn entry.id w'.log = true)
    (hunique : (w'.hub.clientData.map (·.id)).Nodup)
    (hheld : ∀ packet, .PublishQoS2 packet ∈ w'.hub.clientData → account packet.id w = 0) :
    Accounts w' := by
  constructor
  · intro t
    rcases hstep.added t with hsame | ⟨hone, spec, hspec, ht⟩
    · rw [hsame]
      exact hI.once t
    · have := (hnew spec hspec t ht).1
      omega
  · intro t ht
    rcases hstep.added t with hsame | ⟨_, spec, hspec, hid⟩
    · rw [hsame]
      exact hI.none t (hstep.not_requested ht)
    · rw [(hnew spec hspec t hid).2.1] at ht
      cases ht
  · exact hknown
  · exact hunique
  · intro packet hpacket
    rcases hstep.added packet.id with hsame | ⟨_, spec, hspec, hid⟩
    · rw [hsame]
      exact hheld packet hpacket
    · exact absurd rfl ((hnew spec hspec packet.id hid).2.2 packet hpacket)

/-- No new entry, and no task that completes anything. -/
theorem Accounts.shrink (hI : Accounts w) {specs : List TaskSpec} (hstep : Started w w' specs)
    (hdata : w'.hub.clientData.Sublist w.hub.clientData)
    (hspecs : ∀ spec ∈ specs, completedId spec = .none) : Accounts w' := by
  refine hI.grow hstep ?_ ?_ ?_ ?_
  · intro spec hspec t ht
    rw [hspecs spec hspec] at ht
    cases ht
  · intro entry hentry
    exact hstep.requested (hI.known entry (hdata.subset hentry))
  · exact hI.unique.sublist (hdata.map _)
  · intro packet hpacket
    exact hI.held packet (hdata.subset hpacket)

/-- A QoS0 publish gets its task at once and no entry. -/
theorem Accounts.publishQoS0 (hI : Accounts w) {packet : TracePublishQos .AtMostOnce}
    (hstep : Started w w' [.PublishQos0 packet]) (hdata : w'.hub.clientData = w.hub.clientData)
    (hfresh : requestedIn packet.id w.log = false) (hnow : requestedIn packet.id w'.log = true) :
    Accounts w' := by
  refine hI.grow hstep ?_ ?_ ?_ ?_
  · intro spec hspec t ht
    rw [List.mem_singleton.mp hspec] at ht
    obtain rfl := Option.some.inj ht
    refine ⟨hI.none packet.id hfresh, hnow, ?_⟩
    intro held hheld heq
    have known := hI.known _ (hdata ▸ hheld)
    rw [show UnacknowledgedClientData.id (.PublishQoS2 held) = packet.id from heq, hfresh] at known
    cases known
  · intro entry hentry
    exact hstep.requested (hI.known entry (hdata ▸ hentry))
  · rw [hdata]
    exact hI.unique
  · intro held hheld
    exact hI.held held (hdata ▸ hheld)

/-- The task that a new entry gets is the first one of its request. -/
theorem Accounts.accept (hI : Accounts w) {entry : UnacknowledgedClientData}
    (hstep : Started w w' [entry.toAcknowledge])
    (hdata : w'.hub.clientData = w.hub.clientData ++ [entry])
    (hfresh : requestedIn entry.id w.log = false) (hnow : requestedIn entry.id w'.log = true) :
    Accounts w' := by
  have other : ∀ old ∈ w.hub.clientData, old.id ≠ entry.id := by
    intro old hold heq
    rw [← heq, hI.known old hold] at hfresh
    cases hfresh
  have member : ∀ old ∈ w'.hub.clientData, old ∈ w.hub.clientData ∨ old = entry := by
    intro old hold
    rw [hdata] at hold
    exact (List.mem_append.mp hold).imp_right List.mem_singleton.mp
  refine hI.grow hstep ?_ ?_ ?_ ?_
  · intro spec hspec t ht
    rw [List.mem_singleton.mp hspec, completedId_toAcknowledge] at ht
    by_cases hcompleting : completing entry = true
    · rw [if_pos hcompleting] at ht
      obtain rfl := Option.some.inj ht
      refine ⟨hI.none entry.id hfresh, hnow, ?_⟩
      intro packet hpacket
      rcases member _ hpacket with hold | rfl
      · exact other _ hold
      · cases hcompleting
    · rw [if_neg hcompleting] at ht
      cases ht
  · intro old hold
    rcases member old hold with hold | rfl
    · exact hstep.requested (hI.known old hold)
    · exact hnow
  · rw [hdata, List.map_append, List.nodup_append]
    refine ⟨hI.unique, List.nodup_singleton _, ?_⟩
    intro t ht t' ht' heq
    obtain ⟨old, hold, rfl⟩ := List.mem_map.mp ht
    rw [List.map_singleton, List.mem_singleton] at ht'
    exact other old hold (heq.trans ht')
  · intro packet hpacket
    rcases member _ hpacket with hold | rfl
    · exact hI.held packet hold
    · exact hI.none _ hfresh

/-- An entry gets another task when nothing is left of its earlier ones. -/
theorem Accounts.resend (hI : Accounts w) {entry : UnacknowledgedClientData}
    (hstep : Started w w' [entry.toAcknowledge]) (hdata : w'.hub.clientData = w.hub.clientData)
    (hmem : entry ∈ w.hub.clientData)
    (halone : completing entry = true → account entry.id w = 0) : Accounts w' := by
  refine hI.grow hstep ?_ ?_ ?_ ?_
  · intro spec hspec t ht
    rw [List.mem_singleton.mp hspec, completedId_toAcknowledge] at ht
    by_cases hcompleting : completing entry = true
    · rw [if_pos hcompleting] at ht
      obtain rfl := Option.some.inj ht
      refine ⟨halone hcompleting, hstep.requested (hI.known entry hmem), ?_⟩
      intro packet hpacket heq
      rw [hdata] at hpacket
      obtain rfl := List.inj_on_of_nodup_map hI.unique hpacket hmem heq
      cases hcompleting
    · rw [if_neg hcompleting] at ht
      cases ht
  · intro old hold
    exact hstep.requested (hI.known old (hdata ▸ hold))
  · rw [hdata]
    exact hI.unique
  · intro packet hpacket
    exact hI.held packet (hdata ▸ hpacket)

/-- Turning an entry into its PUBREL entry keeps the trace ids. -/
theorem ids_set {entries : List UnacknowledgedClientData} {index : Nat}
    {entry entry' : UnacknowledgedClientData} (hget : entries[index]? = some entry)
    (hid : entry'.id = entry.id) :
    (entries.set index entry').map (·.id) = entries.map (·.id) := by
  obtain ⟨hlt, hentry⟩ := List.getElem?_eq_some_iff.mp hget
  have bound : index < (entries.map (·.id)).length := by simpa using hlt
  have same : entry'.id = (entries.map (·.id))[index] := by simp [hentry, hid]
  rw [List.map_set, same]
  exact List.set_getElem_self bound

/-- After the change no QoS2 entry with the trace id is left. -/
theorem rel_alone {entries : List UnacknowledgedClientData} {index : Nat}
    {packet held : TracePublishQos .ExactlyOnce}
    (hunique : (entries.map (·.id)).Nodup) (hget : entries[index]? = some (.PublishQoS2 packet))
    (hheld : .PublishQoS2 held ∈ entries.set index
      (.PubRel packet.packetId packet.id packet.protocol))
    (hid : held.id = packet.id) : False := by
  obtain ⟨k, hk⟩ := List.getElem?_of_mem hheld
  by_cases hki : index = k
  · subst hki
    rw [List.getElem?_set_self (List.getElem?_eq_some_iff.mp hget).1] at hk
    cases hk
  · rw [List.getElem?_set_ne hki] at hk
    apply hki
    have first : (entries.map (·.id))[index]? = some packet.id := by simp [hget, UnacknowledgedClientData.id]
    have second : (entries.map (·.id))[k]? = some packet.id := by
      simp [hk, UnacknowledgedClientData.id, hid]
    exact (List.getElem?_inj (List.getElem?_eq_some_iff.mp first).1 hunique).mp (first.trans second.symm)

/-- The PUBREC turns an entry of which nothing is owed into one whose task completes. -/
theorem Accounts.recoverRel (hI : Accounts w) {index : Nat}
    {packet : TracePublishQos .ExactlyOnce}
    (hstep : Started w w' [.PublishQos2Rel packet.packetId packet.id packet.protocol])
    (hentry : w.hub.clientData[index]? = some (.PublishQoS2 packet))
    (hdata : w'.hub.clientData = w.hub.clientData.set index
      (.PubRel packet.packetId packet.id packet.protocol)) : Accounts w' := by
  have hmem := List.mem_of_getElem? hentry
  have member : ∀ old ∈ w'.hub.clientData, old ∈ w.hub.clientData ∨
      old = .PubRel packet.packetId packet.id packet.protocol := by
    intro old hold
    rw [hdata] at hold
    exact List.mem_or_eq_of_mem_set hold
  refine hI.grow hstep ?_ ?_ ?_ ?_
  · intro spec hspec t ht
    rw [List.mem_singleton.mp hspec] at ht
    obtain rfl := Option.some.inj ht
    refine ⟨hI.held packet hmem, hstep.requested (hI.known _ hmem), ?_⟩
    intro held hheld heq
    exact rel_alone hI.unique hentry (hdata ▸ hheld) heq
  · intro old hold
    rcases member old hold with hold | rfl
    · exact hstep.requested (hI.known old hold)
    · exact hstep.requested (t := packet.id) (hI.known _ hmem)
  · have ids : (w.hub.clientData.set index
        (.PubRel packet.packetId packet.id packet.protocol)).map (·.id) =
          w.hub.clientData.map (·.id) := ids_set hentry rfl
    rw [hdata, ids]
    exact hI.unique
  · intro held hheld
    rcases member _ hheld with hheld | heq
    · exact hI.held held hheld
    · cases heq

theorem accounts_of_hub {a : HubAction} (hok : resendsAlone w (.hub a) = true)
    (h : HubMoved w a w') (hI : Accounts w) : Accounts w' := by
  cases h with
  | @intro input message taken hub outputs htakes hmove =>
    have hstep := started_of_hub htakes hmove
    have grown := applyOutputs_grown { taken with hub := hub } message outputs
    have data := congrArg Hub.clientData grown.hub
    cases hmove with
    | recoverDone hat hfind hentry hdone hpush =>
      exact hI.shrink hstep (data ▸ List.eraseIdx_sublist ..) (by simp [startedSpecs])
    | rxAccept hat hfree hspec =>
      refine hI.shrink hstep (data ▸ List.Sublist.refl _) ?_
      rcases hspec with ⟨_, rfl⟩ | ⟨_, rfl⟩ <;> simp [startedSpecs, completedId]
    | @accept request entry pool hat hid hpop hfresh =>
      cases htakes with
      | clientData htake =>
        refine hI.accept hstep data ?_ ?_
        · simpa [resendsAlone, receive_of_take htake, hid] using hok
        · exact requestedIn_of_suffix grown.log (by simp [requestedIn, hid])
    | @publishQoS0 packet hat =>
      cases htakes with
      | clientData htake =>
        refine hI.publishQoS0 hstep data ?_ ?_
        · simpa [resendsAlone, receive_of_take htake, ClientData.id] using hok
        · exact requestedIn_of_suffix grown.log (by simp [requestedIn, ClientData.id])
    | @resendEntry next entry hat hentry =>
      cases htakes with
      | resend =>
        refine hI.resend hstep data (List.mem_of_getElem? hentry) ?_
        intro hcompleting
        simpa [resendsAlone, hat.position, hentry, hcompleting] using hok
    | @recoverRel packetId index packet hat hfind hentry =>
      exact hI.recoverRel hstep hentry data
    | _ => exact hI.shrink hstep (data ▸ List.Sublist.refl _) (by simp [startedSpecs])

theorem accounts_of_moved (hok : resendsAlone w action = true) (h : Moved w action w')
    (hI : Accounts w) : Accounts w' := by
  rcases hub_or_not h with ⟨a, rfl, hmoved⟩ | notHub
  · exact accounts_of_hub hok hmoved hI
  · have hub := (hub_of_moved h notHub).1
    obtain ⟨events, hlog, houtside⟩ := log_outside h notHub
    have requested : ∀ t, requestedIn t w'.log = requestedIn t w.log := by
      intro t
      have nothing : requestedIn t events = false := by
        rw [requestedIn, List.any_eq_false]
        intro event hevent
        cases houtside event hevent <;> simp
      rw [hlog, requestedIn_append, nothing, Bool.false_or]
    have less : ∀ t, account t w' ≤ account t w := by
      intro t
      rcases task_or_not h with ⟨i, task, a, rfl, hget, hmoved⟩ | notTask
      · exact account_of_taskMoved hget hmoved
      · have quiet : sent t w'.log = sent t w.log := by
          cases h with
          | hub hmoved => exact absurd rfl (notHub _)
          | task hget hmoved => exact absurd rfl (notTask _ _)
          | ping hget hmoved => cases hmoved <;> rfl
          | network hget hmoved =>
            cases hmoved with
            | @read packet => cases packet <;> rfl
            | _ => rfl
          | _ => rfl
        have same : account t w' = account t w := by
          rw [account, account, quiet, tasks_of_moved h notHub notTask]
        exact Nat.le_of_eq same
    constructor
    · intro t
      exact Nat.le_trans (less t) (hI.once t)
    · intro t ht
      rw [requested] at ht
      exact Nat.le_zero.mp (hI.none t ht ▸ less t)
    · intro entry hentry
      rw [requested]
      exact hI.known entry (hub ▸ hentry)
    · rw [hub]
      exact hI.unique
    · intro packet hpacket
      rw [hub] at hpacket
      exact Nat.le_zero.mp (hI.held packet hpacket ▸ less packet.id)

end Steps

theorem reachable_accounts {options : MqttOptions} {protocol : Protocol} {w : World}
    (h : Reachable World.step (fun w a => resendsAlone w a = true)
      (.init options protocol) w) : Accounts w := by
  refine h.invariant ?_ ?_
  · constructor
    · intro t
      exact Nat.zero_le 1
    · intro t _
      rfl
    · intro entry hentry
      cases hentry
    · exact List.nodup_nil
    · intro packet hpacket
      cases hpacket
  · intro w action w' _ ih hok hstep
    exact accounts_of_moved hok (moved_of_step hstep) ih

/-- In every run with distinct trace ids in which an entry is resent only when
nothing is left of its earlier tasks, the user is told at most once that a
request is complete. -/
theorem completed_at_most_once {options : MqttOptions} {protocol : Protocol} {w : World}
    (h : Reachable World.step (fun w a => resendsAlone w a = true)
      (.init options protocol) w) (t : TraceId) : sent t w.log ≤ 1 := by
  have once := (reachable_accounts h).once t
  rw [account] at once
  omega

/-- The first task of a QoS1 publish outlives its connection; after the
reconnection the one PUBACK completes the publish twice. -/
theorem completed_twice_after_reconnect :
    ∃ w, Reachable World.step free (.init ⟨60, true⟩ .V4) w ∧
      (w.log.countP (fun event => match event with | .requested _ => true | _ => false) = 1 ∧
        sent 7 w.log = 2) :=
  exists_of_guardedRun
    [.hub (.connect 0), .network 0 (.connected false), .hub (.connecting 0), .hub .load,
      .hub .resend,
      .request (.PublishQoS1 (.init .AtLeastOnce "a" [] false .V4 7)), .hub (.recv 1),
      .task 0 .run, .network 0 (.take 1 none), .task 0 .receipt,
      .network 0 (.readErr "read 0 byte from network"), .hub (.network 1), .hub .disconnect,
      .hub (.connect 0), .network 1 (.connected false), .hub (.connecting 2), .hub .load,
      .hub .resend, .hub .resend,
      .task 1 .run, .network 1 (.take 3 none), .task 1 .receipt,
      .broker 1 .recv, .broker 1 (.send (.Ack (.PubAck 1)) 0), .network 1 .read,
      .task 0 (.ack 3), .task 1 (.ack 3),
      .task 0 .run, .task 0 .run, .task 0 .run, .task 1 .run, .task 1 .run, .task 1 .run]
    (by decide +kernel)

/-- The law where the first task died with its connection before the resend. -/
theorem completed_at_most_once_after_resend :
    ∃ w, guardedRun World.step (fun w a => resendsAlone w a = true) (.init ⟨60, true⟩ .V4)
        [.hub (.connect 0), .network 0 (.connected false), .hub (.connecting 0), .hub .load,
          .hub .resend,
          .request (.PublishQoS1 (.init .AtLeastOnce "a" [] false .V4 7)), .hub (.recv 1),
          .network 0 (.readErr "read 0 byte from network"), .task 0 .run, .task 0 .receiptErr,
          .hub (.network 1), .hub .disconnect,
          .hub (.connect 0), .network 1 (.connected false), .hub (.connecting 2), .hub .load,
          .hub .resend, .hub .resend,
          .task 1 .run, .network 1 (.take 3 none), .task 1 .receipt,
          .broker 1 .recv, .broker 1 (.send (.Ack (.PubAck 1)) 0), .network 1 .read,
          .task 1 (.ack 3), .task 1 .run, .task 1 .run, .task 1 .run] = some w ∧
      sent 7 w.log ≤ 1 :=
  end_of_guardedRun _ (by decide +kernel) (fun _ h => completed_at_most_once h 7)

end Completions
