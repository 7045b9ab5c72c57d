import ForMqttClient.Handshake
import ForMqttClient.Processes
import ForMqttClient.Reconnects

/-!
# Back on a fresh connection

A hub in its loop may hold itself for connected to a `TaskNetwork` that has
ended long ago, with its report taken and nothing else on its way. Then the
keep-alive chain is what is left: it leads to a ping, the ping to its failure,
and this to a new attempt, behind which every entry has its task again. Where another
client of the process has cut the chain, nothing is left.
-/

namespace Recovery

open MqttData TaskHub HubSteps Tasks System SystemSteps GuardedRuns TaskRuns UserWill
open Handshake KeepAlive PacketIds Processes Reconnects

/-! ## Who writes to the hub -/

/-- What a worker puts into the queue of the hub. -/
inductive Rightful : Worker → BusEvent → Prop where
  | request {data : ClientData} : Rightful .client (.clientData data)
  | task {i : Nat} {msg : HubMsg} (h : taskMsg msg = true) : Rightful (.task i) (.hubMsg msg)
  | pingFail {i : Nat} : Rightful (.ping i) (.hubMsg .PingFail)
  | pingSuccess {i : Nat} : Rightful (.ping i) (.hubMsg .PingSuccess)
  | timer {i time : Nat} : Rightful (.timer i) (.hubMsg (.KeepAlive time))
  | rxPublish {n : Nat} {publish : Publish} : Rightful (.network n) (.hubMsg (.RxPublish publish))

def Senders (w : World) : Prop := ∀ e ∈ w.bus, e.receiver = .hub → Rightful e.sender e.event

/-- The messages of the keep-alive chain. -/
def ofChain : HubMsg → Prop
  | .KeepAlive _ | .PingSuccess | .PingFail => True
  | _ => False

/-- Nobody acts but the hub, its timers and its pings, and handshakes succeed. Of its
queues the hub takes only the outcome of an attempt and the messages of the chain. -/
def Reviving (w : World) : Action → Prop
  | .hub (.recv j) => ∃ sender msg message rest, ofChain msg ∧
      PairFifo.take Envelope.channel w.bus j = some (⟨sender, .hub, .hubMsg msg, message⟩, rest)
  | .timer _ | .ping _ _ => True
  | action => Alone w action

theorem reviving_of_alone (w : World) (action : Action) (h : Alone w action) :
    Reviving w action := by
  cases action with
  | hub a =>
    cases a with
    | recv j => cases h
    | _ => exact h
  | timer i => trivial
  | ping i a => trivial
  | _ => exact h

/-- What is known of a client that may be left to itself. -/
structure Sound (w : World) : Prop where
  ready : Ready w
  onTrack : OnTrack w
  background : Background w
  senders : Senders w
  chain : ChainAlive w.keepAliveId w

section Invariant

variable {w w' : World} {action : Action}

theorem senders_of_moved (h : Moved w action w') (htrack : OnTrack w) (hI : Senders w) :
    Senders w' := by
  intro e he hreceiver
  rcases mem_bus_of_moved h he with hold | hnew
  · exact hI e hold hreceiver
  · cases hnew with
    | request => exact .request
    | task hget hphase hprog => exact .task (htrack.taskMsg hget hprog)
    | pingFail => exact .pingFail
    | pingSuccess => exact .pingSuccess
    | timer => exact .timer
    | rxPublish => exact .rxPublish
    | _ => cases hreceiver

theorem sound_of_moved (h : Moved w action w') (hI : Sound w) : Sound w' where
  ready := ready_of_moved h hI.ready
  onTrack := onTrack_of_moved h hI.onTrack
  background := background_of_moved h hI.background
  senders := senders_of_moved h hI.onTrack hI.senders
  chain := own_chain h hI.chain

theorem sound_of_reach {ok : World → Action → Prop} (hI : Sound w)
    (h : Reachable World.step ok w w') : Sound w' := by
  refine h.invariant hI ?_
  intro v action v' _ ih _ hstep
  exact sound_of_moved (moved_of_step hstep) ih

theorem own_senders : Own (fun w => OnTrack w ∧ Senders w) where
  start := fun _ _ => ⟨fun _ _ hget => (by cases hget), fun _ he => absurd he List.not_mem_nil⟩
  kept := fun _ _ _ hI hstep => ⟨onTrack_of_moved (moved_of_step hstep) hI.1,
    senders_of_moved (moved_of_step hstep) hI.1 hI.2⟩
  shared := fun _ _ hI => hI

theorem own_background : Own Background where
  start := fun options protocol => ⟨⟨fun _ he => absurd he List.not_mem_nil,
    fun _ he => absurd he List.not_mem_nil⟩, initial_conserved options protocol⟩
  kept := fun _ _ _ hI hstep => background_of_moved (moved_of_step hstep) hI
  shared := fun _ _ hI => ⟨⟨hI.routed.1, hI.routed.2⟩, hI.ids⟩

theorem own_ready : Own (fun w => w.hub.options.autoReconnect = true → Ready w) where
  start := fun _ _ hauto => ready_init hauto
  kept := fun _ _ _ hI hstep hauto => ready_of_moved (moved_of_step hstep)
    (hI ((options_of_moved (moved_of_step hstep)) ▸ hauto))
  shared := fun _ _ hI hauto =>
    ⟨(hI hauto).standing, (hI hauto).known, (hI hauto).reported, (hI hauto).expecting, hauto⟩

/-- A client that is alone in its process, or whose chain nobody has cut. -/
theorem sound_of_clientAt {p : Process} (h : Reachable Process.step free .init p) {c : Nat}
    (hget : clientAt p c = some w) (hauto : w.hub.options.autoReconnect = true)
    (hchain : p.clients.length = 1 ∨ ChainAlive w.keepAliveId w) : Sound w where
  ready := own_ready.clientAt h hget hauto
  onTrack := (own_senders.clientAt h hget).1
  background := own_background.clientAt h hget
  senders := (own_senders.clientAt h hget).2
  chain := hchain.elim (fun lone => chain_of_lone h lone hget) id

/-- A client that revives takes in no command. -/
theorem commands_of_reviving (hquiet : w.commands = [])
    (h : Reachable World.step Reviving w w') : w'.commands = [] := by
  refine h.invariant (I := fun v => v.commands = []) hquiet ?_
  intro v action v' _ ih hok hstep
  rw [World.commands, List.filterMap_eq_nil_iff] at ih ⊢
  intro e he
  rcases mem_bus_of_moved (moved_of_step hstep) he with hmem | hnew
  · exact ih e hmem
  · cases hnew with
    | command => cases hok
    | _ => rfl

/-- Its entries are left as they are. -/
theorem entries_of_reviving (h : Reachable World.step Reviving w w') :
    w'.hub.clientData = w.hub.clientData := by
  refine h.invariant (I := fun v => v.hub.clientData = w.hub.clientData) rfl ?_
  intro v action v' _ ih hok hstep
  rw [← ih]
  rcases hub_or_not (moved_of_step hstep) with ⟨a, rfl, hmoved⟩ | notHub
  · cases hmoved with
    | @intro input message taken hub outputs htakes hmove =>
      rw [(applyOutputs_grown _ _ _).hub]
      -- only requests and the messages of tasks touch the entries
      cases hmove with
      | accept =>
        cases htakes with
        | clientData htake =>
          obtain ⟨sender, msg, message, rest, _, htake'⟩ := hok
          cases htake.symm.trans htake'
      | recoverDone =>
        cases htakes with
        | hubMsg htake =>
          obtain ⟨sender, msg, message, rest, hchain, htake'⟩ := hok
          cases htake.symm.trans htake'
          cases hchain
      | recoverRel =>
        cases htakes with
        | hubMsg htake =>
          obtain ⟨sender, msg, message, rest, hchain, htake'⟩ := hok
          cases htake.symm.trans htake'
          cases hchain
      | _ => rfl
  · rw [(hub_of_moved (moved_of_step hstep) notHub).1]

end Invariant

/-! ## Along the chain -/

section Chain

variable {w : World} {i : Nat}

/-- A ping has failed. -/
def Down (w : World) : Prop := At w.hub (.ToDisconnect .PingFail) .loop

/-- The hub is in its loop, and the timer of the latest token sleeps. -/
def Timed (w : World) : Prop := Looping w ∧ some w.keepAliveId ∈ w.timers

/-- The hub is in its loop, and ping `i` has something for it. -/
def Heard (i : Nat) (msg : HubMsg) (w : World) : Prop :=
  Looping w ∧ ∃ e ∈ w.bus, e.channel = (.ping i, .hub) ∧ e.event = .hubMsg msg

theorem canReach_recv {P : World → Prop} (hat : Looping w) {j message : Nat} {sender : Worker}
    {msg : HubMsg} {rest : List Envelope} (htake : PairFifo.take Envelope.channel w.bus j =
      some (⟨sender, .hub, .hubMsg msg, message⟩, rest)) (hchain : ofChain msg)
    (h : CanReach World.step Reviving P (World.applyOutputs message
      { w with
        bus := rest
        log := .hubTook sender msg :: w.log
        hub := (w.hub.dealHubMsg w.keepAliveId msg).hub }
      (w.hub.dealHubMsg w.keepAliveId msg).outputs)) : CanReach World.step Reviving P w := by
  have allowed : Reviving w (.hub (.recv j)) := ⟨sender, msg, message, rest, hchain, htake⟩
  exact h.after allowed (step_recv hat htake)

/-- The first message of a party of the chain. -/
theorem first_of_channel (hI : Senders w) {sender : Worker} {first : Envelope}
    {left : List Envelope}
    (hchannel : PairFifo.channel Envelope.channel (sender, .hub) w.bus = first :: left) :
    ∃ j event message rest, first = ⟨sender, .hub, event, message⟩ ∧ Rightful sender event ∧
      PairFifo.take Envelope.channel w.bus j = some (⟨sender, .hub, event, message⟩, rest) ∧
      PairFifo.channel Envelope.channel (sender, .hub) rest = left := by
  have listed : first ∈ PairFifo.channel Envelope.channel (sender, .hub) w.bus := by
    rw [hchannel]
    exact List.mem_cons_self
  obtain ⟨he, hkey⟩ := PairFifo.mem_channel.mp listed
  obtain ⟨j, ⟨sender', receiver, event, message⟩, rest, htake, hsame⟩ :
      ∃ j e rest, PairFifo.take Envelope.channel w.bus j = some (e, rest) ∧
        e.channel = first.channel := PairFifo.exists_take he
  obtain ⟨rfl, rfl⟩ := Prod.mk.inj (hsame.trans hkey)
  have split := (PairFifo.channel_take htake).symm.trans hchannel
  obtain ⟨rfl, rfl⟩ := List.cons.inj split
  exact ⟨j, event, message, rest, rfl, hI _ (PairFifo.mem_of_take htake) rfl, htake, rfl⟩

/-- A ping that has succeeded leads to a new timer. -/
theorem canReach_of_success (hat : Looping w) {j message : Nat} {rest : List Envelope}
    (htake : PairFifo.take Envelope.channel w.bus j =
      some (⟨.ping i, .hub, .hubMsg .PingSuccess, message⟩, rest)) :
    CanReach World.step Reviving (fun v => Timed v ∧ v.bus = rest) w := by
  refine canReach_recv hat htake trivial ?_
  refine CanReach.after (a := .hub .load) ?_ trivial (step_load rfl)
  exact .now ⟨⟨⟨rfl, hat.state, hat.position⟩, List.mem_append_right _ List.mem_cons_self⟩, rfl⟩

/-- A failure that is on its way arrives. -/
theorem canReach_of_failure {left : List Envelope} : ∀ {w : World}, Sound w → Looping w →
    PairFifo.channel Envelope.channel (.ping i, .hub) w.bus = left →
    (∃ e ∈ left, e.event = .hubMsg .PingFail) → CanReach World.step Reviving Down w := by
  induction left with
  | nil =>
    rintro w _ _ _ ⟨e, he, _⟩
    cases he
  | cons first left ih =>
    rintro w hI hat hchannel ⟨e, he, hfail⟩
    obtain ⟨j, event, message, rest, rfl, hrightful, htake, hrest⟩ :=
      first_of_channel hI.senders hchannel
    cases hrightful with
    | pingFail =>
      refine canReach_recv hat htake trivial ?_
      exact .now ⟨hat.draw, rfl, hat.position⟩
    | pingSuccess =>
      refine (canReach_of_success hat htake).bind ?_
      rintro v hreach ⟨timed, bus⟩
      refine ih (sound_of_reach hI hreach) timed.1 (bus ▸ hrest) ⟨e, ?_, hfail⟩
      rcases List.mem_cons.mp he with rfl | hlater
      · cases hfail
      · exact hlater

/-- The token of a timer that has woken leads to a ping. -/
theorem canReach_of_keepAlive {left : List Envelope} : ∀ {w : World}, Sound w → Looping w →
    PairFifo.channel Envelope.channel (.timer i, .hub) w.bus = left →
    (∃ e ∈ left, e.event = .hubMsg (.KeepAlive w.keepAliveId)) →
    CanReach World.step Reviving
      (fun v => Looping v ∧ v.pings[w.pings.length]? = some (.send 3)) w := by
  induction left with
  | nil =>
    rintro w _ _ _ ⟨e, he, _⟩
    cases he
  | cons first left ih =>
    rintro w hI hat hchannel ⟨e, he, htoken⟩
    obtain ⟨j, event, message, rest, rfl, hrightful, htake, hrest⟩ :=
      first_of_channel hI.senders hchannel
    cases hrightful with
    | @timer _ time =>
      have took := step_recv hat htake
      by_cases latest : time = w.keepAliveId
      · refine canReach_recv hat htake trivial ?_
        rw [Hub.dealHubMsg, if_pos latest]
        exact .now ⟨hat, List.getElem?_concat_length⟩
      · rw [Hub.dealHubMsg, if_neg latest] at took
        have later := ih (sound_of_moved (moved_of_step took) hI) hat hrest ⟨e, ?_, htoken⟩
        · refine canReach_recv hat htake trivial ?_
          rw [Hub.dealHubMsg, if_neg latest]
          exact later
        · rcases List.mem_cons.mp he with rfl | hlater
          · cases htoken
            exact absurd rfl latest
          · exact hlater

/-- A ping takes its turn. -/
theorem canReach_ping {P : World → Prop} (i : Nat) (a : PingAction) (w' : World)
    (h : CanReach World.step Reviving P w') (turned : w.step (.ping i a) = some w') :
    CanReach World.step Reviving P w := h.after (a := .ping i a) trivial turned

/-- A ping at its end tells the hub. -/
theorem canReach_of_failed (hat : Looping w) {ping : Ping} (hget : w.pings[i]? = some ping)
    (hping : ping = .failing ∨ ping = .finalFail) :
    CanReach World.step Reviving (Heard i .PingFail) w := by
  have heard (next : Ping) :
      Heard i .PingFail ((w.dispatch (.ping i) (.hubMsg .PingFail) 0).setPing i next) :=
    ⟨hat, _, List.mem_append_right _ List.mem_cons_self, rfl, rfl⟩
  rcases hping with rfl | rfl
  · refine canReach_ping i .dispatch _ (.now (heard .finalFail)) ?_
    simp only [World.step, hget, World.stepPing]
  · refine canReach_ping i .dispatch _ (.now (heard .ended)) ?_
    simp only [World.step, hget, World.stepPing]

/-- However often it waits, no answer comes. -/
theorem canReach_of_waiting {timeoutTime : Nat} : ∀ {w : World}, Looping w →
    w.pings[i]? = some (.wait timeoutTime) → CanReach World.step Reviving (Heard i .PingFail) w := by
  induction timeoutTime with
  | zero =>
    intro w hat hget
    have hlt := (List.getElem?_eq_some_iff.mp hget).1
    refine canReach_ping i .timeout (w.setPing i .finalFail) ?_ ?_
    · exact canReach_of_failed hat (List.getElem?_set_self hlt) (.inr rfl)
    · simp [World.step, hget, World.stepPing, Ping.waitFailed]
  | succ timeoutTime ih =>
    intro w hat hget
    have hlt := (List.getElem?_eq_some_iff.mp hget).1
    refine canReach_ping i .timeout (w.setPing i (.waitFailed (timeoutTime + 1))) ?_ ?_
    · unfold Ping.waitFailed
      split
      · exact canReach_of_failed hat (List.getElem?_set_self hlt) (.inr rfl)
      · exact ih hat (List.getElem?_set_self hlt)
    · simp only [World.step, hget, World.stepPing]

theorem step_sendPing {timeoutTime : Nat} (hget : w.pings[i]? = some (.send timeoutTime)) :
    w.step (.ping i .send) = some ((w.send (.ping i) .PingReq).setPing i
      (.sending timeoutTime w.receipts.length)) := by
  simp only [World.step, hget, World.stepPing]

/-- However often it sends, no receipt comes. -/
theorem canReach_of_sending {timeoutTime : Nat} : ∀ {w : World} {receipt : Nat}, Looping w →
    w.pings[i]? = some (.sending timeoutTime receipt) →
    CanReach World.step Reviving (Heard i .PingFail) w := by
  induction timeoutTime with
  | zero =>
    intro w receipt hat hget
    have hlt := (List.getElem?_eq_some_iff.mp hget).1
    refine canReach_ping i .sendFail (w.setPing i .failing) ?_ ?_
    · exact canReach_of_failed hat (List.getElem?_set_self hlt) (.inl rfl)
    · simp [World.step, hget, World.stepPing, Ping.sendFailed]
  | succ timeoutTime ih =>
    intro w receipt hat hget
    have hlt := (List.getElem?_eq_some_iff.mp hget).1
    have again : (w.setPing i (.send timeoutTime)).pings[i]? = some (.send timeoutTime) :=
      List.getElem?_set_self hlt
    have hlt' := (List.getElem?_eq_some_iff.mp again).1
    refine canReach_ping i .sendFail (w.setPing i (.sendFailed (timeoutTime + 1))) ?_ ?_
    · unfold Ping.sendFailed
      split
      · exact canReach_of_failed hat (List.getElem?_set_self hlt) (.inl rfl)
      · refine canReach_ping i .send _ ?_ (step_sendPing again)
        exact ih hat (List.getElem?_set_self hlt')
    · simp only [World.step, hget, World.stepPing]

theorem canReach_of_send {timeoutTime : Nat} (hat : Looping w)
    (hget : w.pings[i]? = some (.send timeoutTime)) :
    CanReach World.step Reviving (Heard i .PingFail) w := by
  have hlt := (List.getElem?_eq_some_iff.mp hget).1
  refine canReach_ping i .send _ ?_ (step_sendPing hget)
  exact canReach_of_sending hat (List.getElem?_set_self hlt)

/-- Whatever a ping is at, the hub hears of it. -/
theorem canReach_of_live (hat : Looping w) {ping : Ping} (hget : w.pings[i]? = some ping)
    (hlive : ping ≠ .ended) :
    CanReach World.step Reviving (fun v => Heard i .PingFail v ∨ Heard i .PingSuccess v) w := by
  have failing (h : CanReach World.step Reviving (Heard i .PingFail) w) :
      CanReach World.step Reviving (fun v => Heard i .PingFail v ∨ Heard i .PingSuccess v) w :=
    h.mono (fun _ _ => id) (fun _ => .inl)
  cases ping with
  | send timeoutTime => exact failing (canReach_of_send hat hget)
  | sending timeoutTime receipt => exact failing (canReach_of_sending hat hget)
  | wait timeoutTime => exact failing (canReach_of_waiting hat hget)
  | failing => exact failing (canReach_of_failed hat hget (.inl rfl))
  | finalFail => exact failing (canReach_of_failed hat hget (.inr rfl))
  | succeed =>
    have heard : Heard i .PingSuccess
        ((w.dispatch (.ping i) (.hubMsg .PingSuccess) 0).setPing i .ended) :=
      ⟨hat, _, List.mem_append_right _ List.mem_cons_self, rfl, rfl⟩
    refine canReach_ping i .dispatch _ (.now (.inr heard)) ?_
    simp only [World.step, hget, World.stepPing]
  | ended => exact absurd rfl hlive

theorem canReach_of_heardFail (hI : Sound w) (h : Heard i .PingFail w) :
    CanReach World.step Reviving Down w := by
  obtain ⟨hat, e, he, hchannel, hevent⟩ := h
  exact canReach_of_failure hI hat rfl ⟨e, PairFifo.mem_channel.mpr ⟨he, hchannel⟩, hevent⟩

/-- From a timer that wakes to a ping that fails. -/
theorem canReach_of_token (hI : Sound w) (hat : Looping w)
    (htoken : HoldsToken w.keepAliveId w) : CanReach World.step Reviving Down w := by
  have queued {v : World} (hv : Sound v) (hat : Looping v)
      (hqueued : v.queued (.KeepAlive v.keepAliveId)) : CanReach World.step Reviving Down v := by
    obtain ⟨⟨sender, receiver, event, message⟩, he, rfl, rfl⟩ := hqueued
    obtain ⟨i, rfl⟩ : ∃ i, sender = .timer i := by
      cases hv.senders _ he rfl with
      | task h => cases h
      | timer => exact ⟨_, rfl⟩
    refine (canReach_of_keepAlive hv hat rfl ⟨_, PairFifo.mem_channel.mpr ⟨he, rfl⟩, rfl⟩).bind ?_
    rintro u hreach ⟨hat', hget⟩
    refine (canReach_of_send hat' hget).bind ?_
    intro t hreach' heard
    exact canReach_of_heardFail (sound_of_reach (sound_of_reach hv hreach) hreach') heard
  rcases htoken with htimer | hqueued
  · obtain ⟨i, hget⟩ := List.getElem?_of_mem htimer
    have woken : w.step (.timer i) = some (w.stepTimer i w.keepAliveId) := by
      simp only [World.step, hget]
    have rest := queued (sound_of_moved (moved_of_step woken) hI) hat
      ⟨_, List.mem_append_right _ List.mem_cons_self, rfl, rfl⟩
    exact rest.after (a := .timer i) trivial woken
  · exact queued hI hat hqueued

/-- A hub in its loop, whatever it is connected to, can find its connection lost. -/
theorem canReach_down (hI : Sound w) (hat : Looping w) : CanReach World.step Reviving Down w := by
  have timed {v : World} (hv : Sound v) (h : Timed v) : CanReach World.step Reviving Down v :=
    canReach_of_token hv h.1 (.inl h.2)
  have succeeded {v : World} {i : Nat} (hv : Sound v) (h : Heard i .PingSuccess v) :
      CanReach World.step Reviving Down v := by
    obtain ⟨hat, e, he, hchannel, hevent⟩ := h
    cases hleft : PairFifo.channel Envelope.channel (.ping i, .hub) v.bus with
    | nil =>
      have listed := PairFifo.mem_channel.mpr ⟨he, hchannel⟩
      rw [hleft] at listed
      cases listed
    | cons first left =>
      obtain ⟨j, event, message, rest, rfl, hrightful, htake, hrest⟩ :=
        first_of_channel hv.senders hleft
      cases hrightful with
      | pingFail =>
        exact canReach_of_failure hv hat hleft ⟨_, List.mem_cons_self, rfl⟩
      | pingSuccess =>
        refine (canReach_of_success hat htake).bind ?_
        rintro u hreach ⟨htimed, _⟩
        exact timed (sound_of_reach hv hreach) htimed
  have heard {v : World} {i : Nat} (hv : Sound v)
      (h : Heard i .PingFail v ∨ Heard i .PingSuccess v) : CanReach World.step Reviving Down v :=
    h.elim (canReach_of_heardFail hv) (succeeded hv)
  have result {msg : HubMsg} (hmsg : msg = .PingFail ∨ msg = .PingSuccess) (h : w.queued msg) :
      ∃ i, Heard i msg w := by
    obtain ⟨⟨sender, receiver, event, message⟩, he, rfl, rfl⟩ := h
    have hrightful := hI.senders _ he rfl
    rcases hmsg with rfl | rfl
    · cases hrightful with
      | task h => cases h
      | pingFail => exact ⟨_, hat, _, he, rfl, rfl⟩
    · cases hrightful with
      | task h => cases h
      | pingSuccess => exact ⟨_, hat, _, he, rfl, rfl⟩
  rcases hI.chain hat.state hat.draw with htoken | ⟨ping, hping, hlive⟩ | hsuccess | hfail
  · exact canReach_of_token hI hat htoken
  · obtain ⟨i, hget⟩ := List.getElem?_of_mem hping
    refine (canReach_of_live hat hget hlive).bind ?_
    intro v hreach h
    exact heard (sound_of_reach hI hreach) h
  · obtain ⟨i, h⟩ := result (.inr rfl) hsuccess
    exact succeeded hI h
  · obtain ⟨i, h⟩ := result (.inl rfl) hfail
    exact canReach_of_heardFail hI h

end Chain

/-! ## A new attempt -/

section Attempt

variable {w : World}

/-- The hub stands in its loop on a connection that has just come up, with nothing on
its streams, and every entry has a task of its own that has not begun. -/
structure Afresh (w : World) : Prop where
  looping : Looping w
  network : ∃ earlier, w.networks = earlier ++ [⟨.Connected, [], []⟩]
  tasks : ∃ earlier, w.tasks = earlier ++
      w.hub.clientData.map (fun entry => Task.init entry.toAcknowledge) ∧
    ∀ e ∈ w.bus, ∀ i, e.sender = .task i → i < earlier.length

theorem canReach_attempt (hI : Sound w) (hwill : leaving w.hub.state = false) :
    CanReach World.step Reviving (fun v => At v.hub .ToConnect .loop) w := by
  have lost {v : World} (hv : Sound v) (hat : Looping v) :
      CanReach World.step Reviving (fun v => At v.hub .ToConnect .loop) v := by
    refine (canReach_down hv hat).bind ?_
    intro u hreach down
    exact (canReach_of_disconnect (sound_of_reach hv hreach).ready down nofun).mono
      reviving_of_alone (fun _ => id)
  have connected {v : World} (hv : Sound v) (hstate : v.hub.state = .Connected) :
      CanReach World.step Reviving (fun v => At v.hub .ToConnect .loop) v := by
    refine ((canReach_of_connected hv.ready.standing hstate).mono reviving_of_alone
      (fun _ => id)).bind ?_
    intro u hreach hat
    exact lost (sound_of_reach hv hreach) hat
  have hstanding := hI.ready.standing
  unfold Standing at hstanding
  cases hstate : w.hub.state with
  | Connected => exact connected hI hstate
  | Disconnected =>
    rw [hstate] at hwill
    cases hwill
  | ToDisconnect reason =>
    rw [hstate] at hstanding hwill
    have hreason : reason ≠ .ClientCommand := by
      rintro rfl
      cases hwill
    exact (canReach_of_disconnect hI.ready ⟨hstanding.1, hstate, hstanding.2⟩ hreason).mono
      reviving_of_alone (fun _ => id)
  | ToConnect =>
    rw [hstate] at hstanding
    obtain ⟨hdraw, hloop | hconnecting⟩ := hstanding
    · exact .now ⟨hdraw, hstate, hloop⟩
    · refine ((canReach_of_connecting hI.ready ⟨hdraw, hstate, hconnecting⟩).mono
        reviving_of_alone (fun _ => id)).bind ?_
      rintro v hreach (hup | hat)
      · exact connected (sound_of_reach hI hreach) hup
      · exact .now hat

theorem canReach_afresh (hI : Sound w) (hquiet : w.commands = [])
    (hat : At w.hub .ToConnect .loop) : CanReach World.step Reviving Afresh w := by
  refine ((canReach_of_attempt hI.ready.known hquiet hat).bind (Q := Afresh) ?_).mono
    reviving_of_alone (fun _ => id)
  intro v _ attempted
  refine CanReach.after (a := .hub .load) ?_ trivial (step_load attempted.draw)
  have loaded : At { v.hub with drawing := false } .Connected (.resending 0) :=
    ⟨rfl, attempted.state, attempted.position⟩
  refine (canReach_of_resending (w := { v with
    hub := { v.hub with drawing := false }, timers := v.timers ++ [some v.keepAliveId] })
      loaded rfl).mono (fun _ _ => id) ?_
  intro u resumed
  refine ⟨resumed.looping, ⟨w.networks, resumed.networks.trans attempted.networks⟩,
    w.tasks, ?_, ?_⟩
  · rw [resumed.tasks, resumed.entries]
    exact congrArg (· ++ _) attempted.tasks
  · intro e he i hsender
    rw [resumed.bus] at he
    rcases attempted.bus e he with hold | hhub
    · exact hI.background.routed.sender e hold i hsender
    · cases hhub.symm.trans hsender

end Attempt

/-- Two attempts were up at the same time. The hub holds itself for connected by the
late report of the second one, which it has closed itself: no `TaskNetwork` lives,
nothing is on its way to it, and a publish is open. -/
def strandedRun : List Action :=
  [.hub (.connect 0), .network 0 (.connected false), .hub (.connecting 0), .hub .load,
    .hub .resend, .request (.PublishQoS1 (.init .AtLeastOnce "a" [] false .V4 7)), .hub (.recv 1),
    .broker 0 (.send (.Disconnect "bye") 0), .broker 0 (.send (.Disconnect "bye") 0),
    .network 0 .read, .network 0 .read, .hub (.network 1), .hub (.connect 0), .hub (.connecting 1),
    .hub (.connect 0), .network 1 (.connected false), .network 2 (.connected false),
    .network 1 (.readErr "eof"), .network 0 (.readErr "eof"), .hub (.connecting 3), .hub .load,
    .hub .resend, .hub .resend, .hub (.network 5), .hub .disconnect, .network 2 (.take 7 none),
    .network 2 (.writeDisconnect none), .hub (.connect 0), .hub (.connecting 4),
    .hub (.connect 0), .hub (.connecting 3), .hub .load, .hub .resend, .hub .resend,
    .network 3 (.connectFail .ChannelAbnormal), .network 4 (.connectFail .ChannelAbnormal),
    .hub (.network 6), .hub (.network 6)]

/-- The second client of the process is up before the first one gets there. -/
def strandedInCompany : List ProcessAction :=
  [.client ⟨60, true⟩ .V5, .client ⟨30, true⟩ .V4, .step 1 (.hub (.connect 0)),
    .step 1 (.network 0 (.connected false)), .step 1 (.hub (.connecting 0)),
    .step 1 (.hub .load), .step 1 (.hub .resend)] ++ strandedRun.map (.step 0)

/-- The hub is `Connected` to nothing, and nothing is on its way to it. -/
def Stranded (w : World) : Prop :=
  w.hub.state = .Connected ∧ w.networks.all (fun network => !network.live) = true ∧
    w.bus.all (fun e => e.receiver = .client) = true ∧ w.hub.clientData.length = 1

instance (w : World) : Decidable (Stranded w) :=
  inferInstanceAs (Decidable (_ ∧ _ ∧ _ ∧ _))

theorem exists_stranded : ∃ p w, Reachable Process.step free .init p ∧ p.clients.length = 2 ∧
    clientAt p 0 = some w ∧ Stranded w ∧ w.hub.options.autoReconnect = true ∧
    w.commands = [] ∧ leaving w.hub.state = false ∧ ChainAlive w.keepAliveId w := by
  obtain ⟨p, hreach, hlength, hat⟩ : ∃ p, Reachable Process.step free .init p ∧
      p.clients.length = 2 ∧ (clientAt p 0).any (fun w => decide (Stranded w ∧
        w.hub.options.autoReconnect = true ∧ w.commands = [] ∧ leaving w.hub.state = false ∧
        ChainAlive w.keepAliveId w)) = true :=
    exists_of_guardedRun strandedInCompany (by decide +kernel)
  obtain ⟨w, hget, hw⟩ := (Option.any_eq_true _ _).mp hat
  exact ⟨p, w, hreach, hlength, hget, of_decide_eq_true hw⟩

end Recovery
