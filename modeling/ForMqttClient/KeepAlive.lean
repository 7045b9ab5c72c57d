import ForMqttClient.SystemSteps

/-!
# The keep-alive chain

A connected hub pings its broker because a timer, a message, a `TaskPing` and
its result hand the chain on to one another. The tokens of all clients of one
process come from one counter, so the chain of a client can be cut by a step
of another one. A process is the counter with the clients in it.
-/

namespace KeepAlive

open MqttData TaskHub HubSteps Tasks System SystemSteps GuardedRuns

structure Process where
  keepAliveId : Nat
  clients : List World

inductive ProcessAction where
  | client (options : MqttOptions) (protocol : Protocol)
  | step (client : Nat) (action : Action)
  deriving DecidableEq, Repr

def Process.init : Process where
  keepAliveId := 0
  clients := []

/-- A client is started, or one client takes a step with the shared counter. -/
def Process.step (p : Process) : ProcessAction → Option Process
  | .client options protocol => some { p with clients := p.clients ++ [.init options protocol] }
  | .step c action =>
    match p.clients[c]? with
    | none => none
    | some w =>
      match { w with keepAliveId := p.keepAliveId }.step action with
      | none => none
      | some w' => some { keepAliveId := w'.keepAliveId, clients := p.clients.set c w' }

/-- A sleeping timer or a `KeepAlive` in the queue carries the token. -/
def HoldsToken (token : Nat) (w : World) : Prop :=
  some token ∈ w.timers ∨ w.queued (.KeepAlive token)

/-- A `TaskPing` runs, or its result is in the queue. -/
def Pinging (w : World) : Prop :=
  (∃ ping ∈ w.pings, ping ≠ .ended) ∨ w.queued .PingSuccess ∨ w.queued .PingFail

/-- The chain of one client. While the hub draws a token it is on its way to
the next timer. -/
def ChainAlive (latest : Nat) (w : World) : Prop :=
  w.hub.state = .Connected → w.hub.drawing = false → HoldsToken latest w ∨ Pinging w

def Process.Alive (p : Process) : Prop := ∀ w ∈ p.clients, ChainAlive p.keepAliveId w

instance (token : Nat) (w : World) : Decidable (HoldsToken token w) :=
  inferInstanceAs (Decidable (_ ∨ _))

instance (w : World) : Decidable (Pinging w) := inferInstanceAs (Decidable (_ ∨ _))

instance (latest : Nat) (w : World) : Decidable (ChainAlive latest w) :=
  inferInstanceAs (Decidable (_ → _))

instance (p : Process) : Decidable p.Alive :=
  inferInstanceAs (Decidable (∀ w ∈ p.clients, ChainAlive p.keepAliveId w))

/-- No token is drawn while another connected client rests on its timer: at a
step that increments the counter every other connected client that is not
itself drawing waits for a ping or its result (or, after 2^32 draws, holds the
very token that is drawn). -/
def DrawsAlone (p : Process) (action : ProcessAction) : Prop :=
  ∀ c a p', action = .step c a → p.step action = some p' → p'.keepAliveId ≠ p.keepAliveId →
    ∀ i w, i ≠ c → p.clients[i]? = some w → w.hub.state = .Connected →
      w.hub.drawing = false → Pinging w ∨ HoldsToken ((p.keepAliveId + 1) % u32Size) w

section OneClient

variable {w w' : World} {action : Action}

/-- A step that keeps the parties of the chain keeps the chain, unless the hub
takes a message of the chain off its queue. -/
theorem chain_kept (h : Moved w action w') (htimers : ∀ t ∈ w.timers, t ∈ w'.timers)
    (hpings : ∀ ping ∈ w.pings, ping ∈ w'.pings) {latest : Nat}
    (hother : ∀ j sender msg message rest, action = .hub (.recv j) →
      PairFifo.take Envelope.channel w.bus j =
        some (⟨sender, .hub, .hubMsg msg, message⟩, rest) →
      msg ≠ .KeepAlive latest ∧ msg ≠ .PingSuccess ∧ msg ≠ .PingFail)
    (hchain : HoldsToken latest w ∨ Pinging w) : HoldsToken latest w' ∨ Pinging w' := by
  have stays : ∀ msg, msg = .KeepAlive latest ∨ msg = .PingSuccess ∨ msg = .PingFail →
      w.queued msg → w'.queued msg := by
    intro msg hmsg hq
    rcases queued_or_taken h hq with hq' | ⟨j, sender, message, rest, haction, htake⟩
    · exact hq'
    · obtain ⟨h₁, h₂, h₃⟩ := hother j sender msg message rest haction htake
      rcases hmsg with rfl | rfl | rfl
      · exact absurd rfl h₁
      · exact absurd rfl h₂
      · exact absurd rfl h₃
  rcases hchain with (htimer | hq) | ⟨ping, hmem, hlive⟩ | hq | hq
  · exact .inl (.inl (htimers _ htimer))
  · exact .inl (.inr (stays _ (.inl rfl) hq))
  · exact .inr (.inl ⟨ping, hpings ping hmem, hlive⟩)
  · exact .inr (.inr (.inl (stays _ (.inr (.inl rfl)) hq)))
  · exact .inr (.inr (.inr (stays _ (.inr (.inr rfl)) hq)))

/-- A step of the hub leaves the counter alone or stands in `fetch_add`. -/
theorem counter_of_hub {action : HubAction} (h : HubMoved w action w') :
    w'.keepAliveId = w.keepAliveId ∨
      w'.keepAliveId = (w.keepAliveId + 1) % u32Size ∧ w'.hub.drawing = true := by
  cases h with
  | @intro input message taken hub outputs htakes hmove =>
    have same : taken.keepAliveId = w.keepAliveId := by
      cases htakes <;> rfl
    cases hmove with
    | connected hat => exact .inr ⟨congrArg (fun k => (k + 1) % u32Size) same, rfl⟩
    | recoverDone hat hfind hentry hdone hpush =>
      exact .inr ⟨congrArg (fun k => (k + 1) % u32Size) same, rfl⟩
    | pingSuccess hat => exact .inr ⟨congrArg (fun k => (k + 1) % u32Size) same, rfl⟩
    | _ => exact .inl same

/-- A connected hub that takes no message of the chain keeps what it waits for. -/
theorem chain_of_other {action : HubAction} {input : HubInput} {message : Nat} {taken : World}
    {hub : Hub} {outputs : List Output} (htakes : Takes w action input message taken)
    (h : HubMoved w action (World.applyOutputs message { taken with hub := hub } outputs))
    (hheld : HoldsToken w.keepAliveId w ∨ Pinging w)
    (hother : ∀ msg, input = .hubMsg msg →
      msg ≠ .KeepAlive w.keepAliveId ∧ msg ≠ .PingSuccess ∧ msg ≠ .PingFail) :
    HoldsToken w.keepAliveId (World.applyOutputs message { taken with hub := hub } outputs) ∨
      Pinging (World.applyOutputs message { taken with hub := hub } outputs) := by
  have grown := applyOutputs_grown { taken with hub := hub } message outputs
  have timers : taken.timers = w.timers := by cases htakes <;> rfl
  have pings : taken.pings = w.pings := by cases htakes <;> rfl
  apply chain_kept (.hub h)
  · intro t ht
    exact grown.timers.subset (timers ▸ ht)
  · intro ping hping
    exact grown.pings.subset (pings ▸ hping)
  · intro j sender msg message' rest haction htake
    apply hother msg
    cases haction
    cases htakes with
    | clientData htake' => rw [htake] at htake'; cases htake'
    | hubMsg htake' => rw [htake] at htake'; cases htake'; rfl
  · exact hheld

theorem hub_chain {action : HubAction} (h : HubMoved w action w')
    (hchain : ChainAlive w.keepAliveId w) : ChainAlive w'.keepAliveId w' := by
  intro hstate hdraw
  have same : w'.keepAliveId = w.keepAliveId := by
    rcases counter_of_hub h with same | ⟨_, drawing⟩
    · exact same
    · rw [drawing] at hdraw
      cases hdraw
  rw [same]
  have hmoved := h
  cases h with
  | @intro input message taken hub outputs htakes hmove =>
    rw [(applyOutputs_grown { taken with hub := hub } message outputs).hub] at hstate hdraw
    have carry (hat : w.hub.state = .Connected ∧ w.hub.drawing = false) :=
      chain_of_other htakes hmoved (hchain hat.1 hat.2)
    cases hmove with
    | load hdraw => exact .inl (.inl (List.mem_append_right _ List.mem_cons_self))
    | keepAlive hat =>
      exact .inr (.inl ⟨.send 3, List.mem_append_right _ List.mem_cons_self, nofun⟩)
    | keepAliveOld hat hold =>
      refine carry ⟨hat.state, hat.draw⟩ ?_
      rintro msg ⟨⟩
      exact ⟨fun heq => hold (HubMsg.KeepAlive.inj heq), nofun, nofun⟩
    | connected hat => cases hdraw
    | recoverDone hat hfind hentry hdone hpush => cases hdraw
    | pingSuccess hat => cases hdraw
    | commandsStop hat => cases hstate
    | startNetwork hat => rw [hat.state] at hstate; cases hstate
    | turnErr hat => rw [hat.state] at hstate; cases hstate
    | turnFail hat hauto => rw [hat.state] at hstate; cases hstate
    | turnDisconnect hat hauto => rw [hat.state] at hstate; cases hstate
    | giveUpFail hat hauto => cases hstate
    | giveUpDisconnect hat hauto => cases hstate
    | commandDrop hat => cases hstate
    | commandViolence hat => cases hstate
    | connectedErr hat => cases hstate
    | pingFail hat => cases hstate
    | brokerDisconnect hat => split at hstate <;> cases hstate
    | disconnect hat hnext => rcases hnext with rfl | rfl <;> cases hstate
    | recoverNone hat _ => exact carry ⟨hat.state, hat.draw⟩ (by rintro _ ⟨⟩; simp)
    | recoverRel hat _ _ => exact carry ⟨hat.state, hat.draw⟩ (by rintro _ ⟨⟩; simp)
    | rxQos0 hat _ => exact carry ⟨hat.state, hat.draw⟩ (by rintro _ ⟨⟩; simp)
    | rxDup hat _ _ => exact carry ⟨hat.state, hat.draw⟩ (by rintro _ ⟨⟩; simp)
    | rxAccept hat _ _ => exact carry ⟨hat.state, hat.draw⟩ (by rintro _ ⟨⟩; simp)
    | affirmRxId hat => exact carry ⟨hat.state, hat.draw⟩ (by rintro _ ⟨⟩; simp)
    | affirmRxPublish hat _ => exact carry ⟨hat.state, hat.draw⟩ (by rintro _ ⟨⟩; simp)
    | affirmRxPublishNone hat _ => exact carry ⟨hat.state, hat.draw⟩ (by rintro _ ⟨⟩; simp)
    | resendEntry hat _ => exact carry ⟨hat.state, hat.draw⟩ (by rintro _ ⟨⟩)
    | resendEnd hat _ => exact carry ⟨hat.state, hat.draw⟩ (by rintro _ ⟨⟩)
    | lateConnected hat => exact carry ⟨hat.state, hat.draw⟩ (by rintro _ ⟨⟩)
    | lateFail hat => exact carry ⟨hat.state, hat.draw⟩ (by rintro _ ⟨⟩)
    | publishQoS0 hat => exact carry ⟨hat.state, hat.draw⟩ (by rintro _ ⟨⟩)
    | accept hat _ _ _ => exact carry ⟨hat.state, hat.draw⟩ (by rintro _ ⟨⟩)
    | refuse hat _ => exact carry ⟨hat.state, hat.draw⟩ (by rintro _ ⟨⟩)

/-- A `TaskPing` runs until it has put its result in the queue. -/
theorem ping_pinging {i : Nat} {ping : Ping} {action : PingAction}
    (hget : w.pings[i]? = some ping) (h : PingMoved w i ping action w') : Pinging w' := by
  have hlt : i < w.pings.length := (List.getElem?_eq_some_iff.mp hget).1
  have running (ping' : Ping) (hlive : ping' ≠ .ended) (w' : World)
      (hpings : w'.pings = w.pings.set i ping') : Pinging w' := by
    refine .inl ⟨ping', ?_, hlive⟩
    rw [hpings]
    exact List.mem_set hlt ping'
  cases h with
  | send => exact running _ (by simp) _ rfl
  | sent hdone => exact running _ (by simp) _ rfl
  | sendFail => exact running _ (by rw [Ping.sendFailed]; split <;> nofun) _ rfl
  | recv htake hreceiver => exact running _ (by simp) _ rfl
  | timeout => exact running _ (by rw [Ping.waitFailed]; split <;> nofun) _ rfl
  | failing => exact running _ (by simp) _ rfl
  | finalFail =>
    exact .inr (.inr ⟨_, List.mem_append_right _ List.mem_cons_self, rfl, rfl⟩)
  | succeed =>
    exact .inr (.inl ⟨_, List.mem_append_right _ List.mem_cons_self, rfl, rfl⟩)

/-- A timer that wakes hands its token on to the queue. -/
theorem timer_kept {i time latest : Nat} (hget : w.timers[i]? = some (some time))
    (hchain : HoldsToken latest w ∨ Pinging w) :
    HoldsToken latest (w.stepTimer i time) ∨ Pinging (w.stepTimer i time) := by
  have stays : ∀ msg, w.queued msg → (w.stepTimer i time).queued msg := by
    rintro msg ⟨e, he, hreceiver, hevent⟩
    exact ⟨e, List.mem_append_left _ he, hreceiver, hevent⟩
  rcases hchain with (htimer | hq) | hlive | hq | hq
  · obtain ⟨k, hk⟩ := List.getElem?_of_mem htimer
    by_cases hki : k = i
    · rw [hki, hget] at hk
      cases hk
      exact .inl (.inr ⟨_, List.mem_append_right _ List.mem_cons_self, rfl, rfl⟩)
    · refine .inl (.inl (List.mem_of_getElem? (i := k) ?_))
      rw [← hk]
      exact List.getElem?_set_ne (Ne.symm hki)
  · exact .inl (.inr (stays _ hq))
  · exact .inr (.inl hlive)
  · exact .inr (.inr (.inl (stays _ hq)))
  · exact .inr (.inr (.inr (stays _ hq)))

/-- No step of a client, taken by itself, breaks the client's own chain. -/
theorem own_chain (h : Moved w action w') (hchain : ChainAlive w.keepAliveId w) :
    ChainAlive w'.keepAliveId w' := by
  rcases hub_or_not h with ⟨a, rfl, hmoved⟩ | notHub
  · exact hub_chain hmoved hchain
  · obtain ⟨hub, same⟩ := hub_of_moved h notHub
    intro hstate hdraw
    rw [hub] at hstate hdraw
    have before := hchain hstate hdraw
    rw [same]
    have others : ∀ j sender msg message rest, action = .hub (.recv j) →
        PairFifo.take Envelope.channel w.bus j =
          some (⟨sender, .hub, .hubMsg msg, message⟩, rest) →
        msg ≠ .KeepAlive w.keepAliveId ∧ msg ≠ .PingSuccess ∧ msg ≠ .PingFail :=
      fun _ _ _ _ _ heq => absurd heq (notHub _)
    rcases ping_or_not h with ⟨i, ping, a, rfl, hget, hmoved⟩ | notPing
    · exact .inr (ping_pinging hget hmoved)
    · have pings := pings_of_moved h notHub notPing
      by_cases htimer : ∃ i, action = .timer i
      · obtain ⟨i, rfl⟩ := htimer
        cases h with
        | @timer _ time hget => exact timer_kept hget before
      · have timers := timers_of_moved h notHub (fun i heq => htimer ⟨i, heq⟩)
        exact chain_kept h (fun _ ht => timers ▸ ht) (fun _ hp => pings ▸ hp) others before

end OneClient

/-- The counter stays a `u32`. -/
def CounterBounded (p : Process) : Prop := p.keepAliveId < u32Size

theorem process_step {p p' : Process} {c : Nat} {action : Action}
    (h : p.step (.step c action) = some p') :
    ∃ w w', p.clients[c]? = some w ∧ Moved { w with keepAliveId := p.keepAliveId } action w' ∧
      p' = { keepAliveId := w'.keepAliveId, clients := p.clients.set c w' } := by
  simp only [Process.step] at h
  split at h
  · cases h
  · next w hget =>
    split at h
    · cases h
    · next w' hstep => exact ⟨w, w', hget, moved_of_step hstep, (Option.some.inj h).symm⟩

theorem counter_of_moved {w w' : World} {action : Action} (h : Moved w action w') :
    w'.keepAliveId = w.keepAliveId ∨ w'.keepAliveId = (w.keepAliveId + 1) % u32Size := by
  rcases hub_or_not h with ⟨a, rfl, hmoved⟩ | notHub
  · exact (counter_of_hub hmoved).imp id And.left
  · exact .inl (hub_of_moved h notHub).2

theorem counter_bounded {p p' : Process} {action : ProcessAction} (hJ : CounterBounded p)
    (h : p.step action = some p') : CounterBounded p' := by
  cases action with
  | client options protocol => exact Option.some.inj h ▸ hJ
  | step c action =>
    obtain ⟨w, w', hget, moved, rfl⟩ := process_step h
    rcases counter_of_moved moved with same | next
    · exact same ▸ hJ
    · exact next ▸ Nat.mod_lt _ (by decide)

/-- The step rule: from a process whose chains are all alive, a step keeps
them alive exactly if it draws no token alone. -/
theorem alive_iff_drawsAlone {p p' : Process} {action : ProcessAction} (hP : p.Alive)
    (h : p.step action = some p') : DrawsAlone p action ↔ p'.Alive := by
  cases action with
  | client options protocol =>
    refine iff_of_true (by rintro _ _ _ ⟨⟩) ?_
    obtain rfl := Option.some.inj h
    intro w hw
    rcases List.mem_append.mp hw with hw | hw
    · exact hP w hw
    · rw [List.mem_singleton.mp hw]
      intro hstate
      cases hstate
  | step c action =>
    obtain ⟨w, w', hget, moved, hp'⟩ := process_step h
    have hlt : c < p.clients.length := (List.getElem?_eq_some_iff.mp hget).1
    have own : ChainAlive w'.keepAliveId w' :=
      own_chain moved (hP w (List.mem_of_getElem? hget))
    have other : p'.Alive ↔ ∀ i v, i ≠ c → p.clients[i]? = some v →
        ChainAlive w'.keepAliveId v := by
      subst hp'
      constructor
      · intro hP' i v hi hv
        apply hP' v
        apply List.mem_of_getElem?
        rw [List.getElem?_set_ne (Ne.symm hi)]
        exact hv
      · intro hall v hv
        obtain ⟨i, hi⟩ := List.getElem?_of_mem hv
        by_cases hic : i = c
        · rw [hic, List.getElem?_set_self hlt] at hi
          exact Option.some.inj hi ▸ own
        · rw [List.getElem?_set_ne (Ne.symm hic)] at hi
          exact hall i v hic hi
    rw [other]
    rcases counter_of_moved moved with same | next
    · -- the counter stands still, so nothing changes for the others
      refine iff_of_true ?_ ?_
      · intro _ _ q heq hq hne
        rw [h] at hq
        cases hq
        exact absurd (hp' ▸ same) hne
      · intro i v _ hv
        rw [same]
        exact hP v (List.mem_of_getElem? hv)
    · constructor
      · intro hok i v hi hv hstate hdraw
        by_cases hne : p'.keepAliveId = p.keepAliveId
        · rw [← show p'.keepAliveId = w'.keepAliveId by rw [hp'], hne]
          exact hP v (List.mem_of_getElem? hv) hstate hdraw
        · rw [next]
          exact (hok c action p' rfl h hne i v hi hv hstate hdraw).symm
      · rintro hall _ _ q ⟨⟩ hq hne i v hi hv hstate hdraw
        have := hall i v hi hv hstate hdraw
        rw [next] at this
        exact this.symm

end KeepAlive
