import ForMqttClient.ConnectionView
import ForMqttClient.Inbound
import ForMqttClient.KeepAlive
import ForMqttClient.PacketIds
import ForMqttClient.Provenance

/-!
# Several clients in one process

The clients of a process share the counter of the keep-alive tokens. They also draw
their trace ids and their SUBSCRIBE ids from counters of the process, but these ids
are free inputs of a client here. An invariant of one client that does not speak of
the tokens therefore holds of each of them, however their steps interleave, and what
one client can do by itself it can do in the process.
-/

namespace Processes

open MqttData TaskHub HubSteps Tasks System SystemSteps GuardedRuns KeepAlive PacketIds

/-! ## The rule -/

/-- An invariant of a client by itself that another client's tokens do not touch. -/
structure Own (I : World → Prop) : Prop where
  start : ∀ options protocol, I (.init options protocol)
  kept : ∀ w action w', I w → w.step action = some w' → I w'
  shared : ∀ w token, I w → I { w with keepAliveId := token }

theorem process_moved {p p' : Process} {action : ProcessAction} (h : p.step action = some p') :
    (∃ options protocol, p'.clients = p.clients ++ [.init options protocol]) ∨
      ∃ (c : Nat) (w w' : World) (a : Action), p.clients[c]? = some w ∧
        { w with keepAliveId := p.keepAliveId }.step a = some w' ∧
        p'.clients = p.clients.set c w' := by
  cases action with
  | client options protocol => exact .inl ⟨options, protocol, Option.some.inj h ▸ rfl⟩
  | step c a =>
    simp only [Process.step] at h
    split at h
    · cases h
    · next w hget =>
      split at h
      · cases h
      · next w' hstep => exact .inr ⟨c, w, w', a, hget, hstep, Option.some.inj h ▸ rfl⟩

/-- Each client keeps its own invariants. -/
theorem Own.clients {I : World → Prop} (own : Own I) {p : Process}
    (h : Reachable Process.step free .init p) : ∀ w ∈ p.clients, I w := by
  refine h.invariant (I := fun p => ∀ w ∈ p.clients, I w) ?_ ?_
  · intro w hw
    cases hw
  · intro p action p' _ ih _ hstep w hw
    rcases process_moved hstep with ⟨options, protocol, hclients⟩ |
      ⟨c, before, after, a, hget, hmoved, hclients⟩
    · rw [hclients] at hw
      rcases List.mem_append.mp hw with hw | hw
      · exact ih w hw
      · rw [List.mem_singleton.mp hw]
        exact own.start options protocol
    · rw [hclients] at hw
      rcases List.mem_or_eq_of_mem_set hw with hw | rfl
      · exact ih w hw
      · have held := own.shared before p.keepAliveId (ih before (List.mem_of_getElem? hget))
        exact own.kept _ a w held hmoved

/-! ## One client of the process -/

/-- Client `c` with the counter of the process. -/
def clientAt (p : Process) (c : Nat) : Option World :=
  p.clients[c]?.map (fun w => { w with keepAliveId := p.keepAliveId })

/-- Client `c` alone acts, and as the guard allows. -/
def Only (c : Nat) (ok : World → Action → Prop) (p : Process) : ProcessAction → Prop
  | .client _ _ => False
  | .step i action => i = c ∧ ∀ w, clientAt p c = some w → ok w action

section OneClient

variable {p : Process} {c : Nat} {w v : World}

theorem Own.clientAt {I : World → Prop} (own : Own I)
    (h : Reachable Process.step free .init p) (hget : clientAt p c = some w) : I w := by
  obtain ⟨u, hu, rfl⟩ := Option.map_eq_some_iff.mp hget
  exact own.shared u p.keepAliveId (own.clients h u (List.mem_of_getElem? hu))

theorem step_of_clientAt (hget : clientAt p c = some w) {action : Action}
    (h : w.step action = some v) : ∃ p', p.step (.step c action) = some p' ∧
      clientAt p' c = some v ∧ ∀ i, i ≠ c → p'.clients[i]? = p.clients[i]? := by
  obtain ⟨u, hu, rfl⟩ := Option.map_eq_some_iff.mp hget
  have hlt : c < p.clients.length := (List.getElem?_eq_some_iff.mp hu).1
  refine ⟨⟨v.keepAliveId, p.clients.set c v⟩, ?_, ?_, ?_⟩
  · simp only [Process.step, hu, h]
  · rw [Processes.clientAt, List.getElem?_set_self hlt]
    rfl
  · intro i hi
    exact List.getElem?_set_ne (Ne.symm hi)

/-- What a client can do by itself it can do while the others rest. -/
theorem reachable_of_clientAt {ok : World → Action → Prop} (hget : clientAt p c = some w)
    (h : Reachable World.step ok w v) : ∃ p', Reachable Process.step (Only c ok) p p' ∧
      clientAt p' c = some v ∧ ∀ i, i ≠ c → p'.clients[i]? = p.clients[i]? := by
  induction h with
  | start => exact ⟨p, .start, hget, fun _ _ => rfl⟩
  | next _ hok hstep ih =>
    obtain ⟨q, hreach, hat, others⟩ := ih
    obtain ⟨q', hstep', hat', others'⟩ := step_of_clientAt hat hstep
    have allowed : Only c ok q (.step c _) :=
      ⟨rfl, fun u hu => Option.some.inj (hat.symm.trans hu) ▸ hok⟩
    exact ⟨q', hreach.next allowed hstep', hat', fun i hi => (others' i hi).trans (others i hi)⟩

/-- The chain of a client that is alone in its process is never cut. -/
theorem chain_of_lone (h : Reachable Process.step free .init p) (lone : p.clients.length = 1)
    (hget : clientAt p c = some w) : ChainAlive w.keepAliveId w := by
  have alive : p.clients.length ≤ 1 → p.Alive := by
    refine h.invariant (I := fun p => p.clients.length ≤ 1 → p.Alive) ?_ ?_
    · intro _ v hv
      cases hv
    · intro q action q' _ ih _ hstep few
      have fewer : q.clients.length ≤ q'.clients.length := by
        rcases process_moved hstep with ⟨options, protocol, hclients⟩ | ⟨i, _, _, _, _, _, hclients⟩
        · rw [hclients, List.length_append]
          exact Nat.le_add_right _ _
        · exact Nat.le_of_eq (by rw [hclients, List.length_set])
      refine (alive_iff_drawsAlone (ih (Nat.le_trans fewer few)) hstep).mp ?_
      intro i a _ haction _ _ j v hj hv
      obtain rfl := haction
      obtain ⟨u, _, hu, _⟩ := process_step hstep
      have first := (List.getElem?_eq_some_iff.mp hu).1
      have second := (List.getElem?_eq_some_iff.mp hv).1
      omega
  obtain ⟨u, hu, rfl⟩ := Option.map_eq_some_iff.mp hget
  exact alive (Nat.le_of_eq lone) u (List.mem_of_getElem? hu)

end OneClient

/-! ## The invariants of a client -/

theorem ids_of_moved {w w' : World} {action : Action} (h : Moved w action w')
    (hI : IdsConserved w.hub) : IdsConserved w'.hub := by
  rcases hub_or_not h with ⟨a, rfl, hmoved⟩ | notHub
  · cases hmoved with
    | @intro input message taken hub outputs htakes hmove =>
      rw [(applyOutputs_grown { taken with hub := hub } message outputs).hub]
      exact (idMove_of_move hI hmove).conserved hI
  · rw [(hub_of_moved h notHub).1]
    exact hI

theorem own_ids : Own (fun w => IdsConserved w.hub) where
  start := initial_conserved
  kept := fun _ _ _ hI hstep => ids_of_moved (moved_of_step hstep) hI
  shared := fun _ _ hI => hI

theorem own_inOrder (n : Nat) : Own (Inbound.InOrder n) where
  start := fun _ _ => rfl
  kept := fun _ _ _ hI hstep => Inbound.inOrder_of_moved (moved_of_step hstep) hI
  shared := fun _ _ hI => hI

theorem own_passes : Own Inbound.Passes where
  start := Inbound.passes_init
  kept := fun _ _ _ hI hstep => Inbound.passes_of_moved (moved_of_step hstep) hI
  shared := fun _ _ hI => ⟨hI.track, hI.source, hI.keys, hI.qos0, hI.once⟩

theorem own_sources : Own Provenance.Sources where
  start := Provenance.sources_init
  kept := fun _ _ _ hI hstep => Provenance.sources_of_moved hI (moved_of_step hstep)
  shared := fun _ _ hI => ⟨hI.track, ⟨hI.routed.1, hI.routed.2⟩, hI.entries, hI.tasks,
    hI.passed, hI.pings, hI.streams, hI.acks, hI.data, hI.wire, hI.told⟩

theorem own_knows : Own ConnectionView.Knows where
  start := ConnectionView.knows_init
  kept := fun _ _ _ hI hstep => ConnectionView.knows_of_moved hstep hI
  shared := fun _ _ hI => ⟨hI.fits, hI.legal⟩

/-- In every run of a process with any number of clients, for each of them: (a) its
packet ids are conserved; (b) its user gets no message more often than a broker sent
it on the connections of this client; (c) each packet that its broker gets was called
for by this client's own history; (d) what its user was told last fits the state of
its hub. -/
theorem clients_keep_apart {p : Process} (h : Reachable Process.step free .init p) {w : World}
    (hw : w ∈ p.clients) :
    IdsConserved w.hub ∧
    (∀ publish, (Inbound.shown w.log).count publish ≤
      ((Inbound.sentFlow w.log).map Prod.snd).count publish) ∧
    (∀ newer n packet older, w.log = newer ++ .brokerGot n packet :: older →
      Provenance.Called older packet) ∧
    ConnectionView.Fits w.log w.hub.state := by
  refine ⟨own_ids.clients h w hw, ?_, ?_, (own_knows.clients h w hw).fits⟩
  · exact Inbound.shown_le_sent (own_passes.clients h w hw)
      (fun n => (own_inOrder n).clients h w hw)
  · intro newer n packet older hlog
    exact Provenance.called_of_got (own_sources.clients h w hw) hlog

/-- The law for the first of two clients that share the counter, both connected. -/
theorem first_of_two_clients_apart :
    ∃ (p : Process) (w : World), p.clients[0]? = some w ∧ (p.clients.length = 2 ∧ p.keepAliveId = 2) ∧
      IdsConserved w.hub ∧ ConnectionView.Fits w.log w.hub.state := by
  obtain ⟨p, hreach, hp⟩ : ∃ p, Reachable Process.step free .init p ∧
      (p.clients.length = 2 ∧ p.keepAliveId = 2) :=
    exists_of_guardedRun
      [.client ⟨60, true⟩ .V4, .client ⟨30, true⟩ .V5,
        .step 0 (.hub (.connect 0)), .step 0 (.network 0 (.connected false)),
        .step 0 (.hub (.connecting 0)), .step 1 (.hub (.connect 0)),
        .step 1 (.network 0 (.connected false)), .step 1 (.hub (.connecting 0)),
        .step 0 (.hub .load), .step 1 (.hub .load)]
      (by decide +kernel)
  have hlt : 0 < p.clients.length := by omega
  have apart := clients_keep_apart hreach (List.getElem_mem hlt)
  exact ⟨p, p.clients[0], List.getElem?_eq_getElem hlt, hp, apart.1, apart.2.2.2⟩

end Processes
