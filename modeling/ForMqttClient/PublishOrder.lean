import ForMqttClient.Handover
import Mathlib.Data.List.Basic

/-!
# The order of publishes on a connection

Every publish has a task of its own, and nothing orders the tasks. Whether the
publishes reach a connection in the order in which the hub took them in depends on
which of the tasks get to run first.
-/

namespace PublishOrder

open MqttData TaskHub Tasks System SystemSteps TaskRuns GuardedRuns Handshake Handover

/-- `QoSWithPacketId::qos`. -/
def level : QoSWithPacketId → QoS
  | .AtMostOnce => .AtMostOnce
  | .AtLeastOnce _ => .AtLeastOnce
  | .ExactlyOnce _ => .ExactlyOnce

/-- The order of two publishes counts if they have the same topic and the same QoS. -/
def SameFlow (p q : Publish) : Prop := p.topic = q.topic ∧ level p.qos = level q.qos

instance (p q : Publish) : Decidable (SameFlow p q) :=
  inferInstanceAs (Decidable (_ ∧ _))

/-- What reached the queue of network task `n`, oldest first. -/
def reaching (n : Nat) (t : Traced) : List Handing := t.handed.filter (fun h => n ∈ h.networks)

/-- The requests that these packets belong to. -/
def requests (n : Nat) (t : Traced) : List (Option Nat) :=
  (reaching n t).map (fun h => origin h.task t.world.log)

/-- On every connection, of two publishes in one flow the first packet of the one taken
in first comes first. -/
def KeepsOrder (t : Traced) : Prop :=
  ∀ n, ∀ h ∈ reaching n t, ∀ k ∈ reaching n t, SameFlow h.publish k.publish →
    ∀ o q, origin h.task t.world.log = some o → origin k.task t.world.log = some q → o < q →
      (requests n t).idxOf (some o) < (requests n t).idxOf (some q)

/-- The publishes that are still to be sent or to be acknowledged: those of tasks at
their first await and those in `client_data`. -/
def due (w : World) : List (Nat × Publish) :=
  (List.range w.tasks.length).filterMap (fun i =>
      match w.tasks[i]?, origin i w.log with
      | some task, some o =>
        if task.prog = task.spec.run then (published task.spec).map (o, ·) else none
      | _, _ => none) ++
    w.hub.clientData.filterMap (fun entry =>
      (published entry.toAcknowledge).map (takenInAt entry.packetId w.log, ·))

/-- A publish reaches a connection only when each publish of its flow that was taken in
before it and is still due has been there. -/
def takesTurn (t : Traced) (action : Action) : Prop :=
  ∀ h ∈ handing t.world action, ∀ n ∈ h.networks, ∀ d ∈ due t.world,
    (∃ q ∈ origin h.task t.world.log, d.1 < q) → SameFlow d.2 h.publish →
      some d.1 ∈ requests n t

instance (t : Traced) (action : Action) : Decidable (takesTurn t action) :=
  inferInstanceAs (Decidable (∀ h ∈ handing t.world action, ∀ n ∈ h.networks, ∀ d ∈ due t.world,
    (∃ q ∈ origin h.task t.world.log, d.1 < q) → SameFlow d.2 h.publish →
      some d.1 ∈ requests n t))

/-! ## What is due -/

section Due

variable {w w' : World} {t : Traced} {action : Action} {o : Nat} {publish : Publish}

theorem mem_due : (o, publish) ∈ due w ↔
    (∃ i task, w.tasks[i]? = some task ∧ origin i w.log = some o ∧
      task.prog = task.spec.run ∧ published task.spec = some publish) ∨
    ∃ entry ∈ w.hub.clientData, published entry.toAcknowledge = some publish ∧
      takenInAt entry.packetId w.log = o := by
  rw [due, List.mem_append, List.mem_filterMap, List.mem_filterMap]
  refine or_congr ⟨?_, ?_⟩ ⟨?_, ?_⟩
  · rintro ⟨i, _, hi⟩
    split at hi
    · next task o' hget horigin =>
      split at hi
      · next hprog =>
        obtain ⟨found, hpublished, heq⟩ := Option.map_eq_some_iff.mp hi
        cases heq
        exact ⟨i, task, hget, horigin, hprog, hpublished⟩
      · cases hi
    · cases hi
  · rintro ⟨i, task, hget, horigin, hprog, hpublished⟩
    refine ⟨i, List.mem_range.mpr (List.getElem?_eq_some_iff.mp hget).1, ?_⟩
    simp [hget, horigin, hprog, hpublished]
  · rintro ⟨entry, hmem, hentry⟩
    obtain ⟨found, hpublished, heq⟩ := Option.map_eq_some_iff.mp hentry
    cases heq
    exact ⟨entry, hmem, hpublished, rfl⟩
  · rintro ⟨entry, hmem, hpublished, rfl⟩
    exact ⟨entry, hmem, by simp [hpublished]⟩

/-- A task at its first await was there before, or has been started by this step. -/
theorem due_of_task (hI : Background t) (h : Moved t.world action w') {i : Nat} {task : Task}
    (hget : w'.tasks[i]? = some task) (horigin : origin i w'.log = some o)
    (hprog : task.prog = task.spec.run) (hpublished : published task.spec = some publish) :
    (o, publish) ∈ due t.world ∨ t.world.log.length < o := by
  rcases task_before h hget with ⟨before, hbefore, hspec, hsuffix⟩ | ⟨hnew, spec, rfl⟩
  · left
    rw [origin_of_moved h (List.getElem?_eq_some_iff.mp hbefore).1] at horigin
    have htrack := hI.track i before hbefore
    rw [hprog, hspec] at hsuffix
    have whole : before.prog = before.spec.run :=
      htrack.eq_of_length (Nat.le_antisymm htrack.length_le hsuffix.length_le)
    exact mem_due.mpr (.inl ⟨i, before, hbefore, horigin, whole, hspec ▸ hpublished⟩)
  · obtain ⟨o', ho', _, hcause⟩ :=
      origin_of_started hI h hget hnew (by simp [hpublished])
    cases horigin.symm.trans ho'
    rcases hcause with hlate | ⟨entry, hmem, hspec, hat⟩
    · exact .inr hlate
    · exact .inl (mem_due.mpr (.inr ⟨entry, hmem, hspec ▸ hpublished, hat⟩))

/-- An entry in `client_data` was there before, or has been taken in by this step. -/
theorem due_of_entry (hI : Background t) (h : Moved t.world action w')
    {entry : UnacknowledgedClientData} (hmem : entry ∈ w'.hub.clientData)
    (hpublished : published entry.toAcknowledge = some publish) :
    (takenInAt entry.packetId w'.log, publish) ∈ due t.world ∨
      t.world.log.length < takenInAt entry.packetId w'.log := by
  have kept (events : List Event) (hlog : w'.log = events ++ t.world.log)
      (hquiet : ∀ event ∈ events, requestUnder entry.packetId event = none)
      (hold : entry ∈ t.world.hub.clientData) :
      (takenInAt entry.packetId w'.log, publish) ∈ due t.world := by
    rw [hlog, takenInAt_append hquiet]
    exact mem_due.mpr (.inr ⟨entry, hold, hpublished, rfl⟩)
  rcases hub_or_not h with ⟨a, rfl, hmoved⟩ | notHub
  · cases hub_history hI.base.ids hmoved with
    | accepts added request hunused hdata htasks hlog =>
      rw [hdata] at hmem
      rcases List.mem_append.mp hmem with hold | hnew
      · refine .inl (kept [_, _, _] hlog ?_ hold)
        simp [requestUnder, Ne.symm (hunused entry hold)]
      · obtain rfl := List.mem_singleton.mp hnew
        right
        have quiet : takenInAt entry.packetId w'.log = takenInAt entry.packetId
            (.accepted entry :: .requested request :: t.world.log) := by
          have hquiet : ∀ event ∈ [Event.started t.world.tasks.length entry.toAcknowledge],
              requestUnder entry.packetId event = none := by simp [requestUnder]
          rw [hlog]
          exact takenInAt_append hquiet
        rw [quiet, takenInAt_accepted, List.length_cons]
        omega
    | resends added _ hdata htasks hlog =>
      exact .inl (kept [_] hlog (by simp [requestUnder]) (hdata ▸ hmem))
    | qos0 packet request hdata htasks hlog =>
      exact .inl (kept [_, _] hlog (by simp [requestUnder]) (hdata ▸ hmem))
    | other events specs hquiet _ _ hdata _ hlog =>
      exact .inl (kept events hlog (fun event hevent => hquiet event hevent _)
        (hdata entry hmem (by simp [hpublished])))
  · obtain ⟨events, hlog, houtside⟩ := log_outside h notHub
    rw [(hub_of_moved h notHub).1] at hmem
    exact .inl (kept events hlog
      (fun event hevent => quiet_of_outside (houtside event hevent) _) hmem)

/-- What is no longer due is never due again. -/
theorem due_of_moved (hI : Background t) (h : Moved t.world action w')
    (hdue : (o, publish) ∈ due w') : (o, publish) ∈ due t.world ∨ t.world.log.length < o := by
  rcases mem_due.mp hdue with ⟨i, task, hget, horigin, hprog, hpublished⟩ |
      ⟨entry, hmem, hpublished, rfl⟩
  · exact due_of_task hI h hget horigin hprog hpublished
  · exact due_of_entry hI h hmem hpublished

end Due

/-! ## Order -/

theorem sameFlow_of_copy {original publish : Publish}
    (h : publish = original ∨ publish = { original with dup := true }) :
    SameFlow original publish := by
  rcases h with rfl | rfl <;> exact ⟨rfl, rfl⟩

theorem SameFlow.symm {p q : Publish} (h : SameFlow p q) : SameFlow q p := ⟨h.1.symm, h.2.symm⟩

theorem SameFlow.trans {p q r : Publish} (h : SameFlow p q) (h' : SameFlow q r) : SameFlow p r :=
  ⟨h.1.trans h'.1, h.2.trans h'.2⟩

/-- The order that a run with turns keeps: whatever is due has been on each connection
that a later publish of its flow has reached. -/
structure Ordered (t : Traced) : Prop where
  background : Handover.Background t
  keeps : KeepsOrder t
  passed : ∀ n, ∀ k ∈ reaching n t, ∀ q, origin k.task t.world.log = some q →
    ∀ d ∈ due t.world, d.1 < q → SameFlow d.2 k.publish → some d.1 ∈ requests n t

section Steps

variable {t t' : Traced} {action : Action} {n : Nat} {h k : Handing}

theorem mem_requests (hh : h ∈ reaching n t) : origin h.task t.world.log ∈ requests n t :=
  List.mem_map_of_mem hh

/-- Packets of one request are in one flow. -/
theorem sameFlow_of_origin (hI : Handover.Background t) (hh : h ∈ t.handed) (hk : k ∈ t.handed)
    {o : Nat} (ho : origin h.task t.world.log = some o) (ho' : origin k.task t.world.log = some o) :
    SameFlow h.publish k.publish := by
  obtain ⟨task, original, hget, hpublished, hcopy⟩ := publish_of_handed hI hh
  obtain ⟨task', original', hget', hpublished', hcopy'⟩ := publish_of_handed hI hk
  have hspec : task.spec = task'.spec :=
    spec_of_origin hI hget hget' (by simp [hpublished]) (by simp [hpublished']) ho ho'
  rw [← hspec, hpublished] at hpublished'
  cases hpublished'
  exact (sameFlow_of_copy hcopy).symm.trans (sameFlow_of_copy hcopy')

theorem reaching_step (hstep : t.step action = some t') (n : Nat) :
    reaching n t' = reaching n t ++
      (handing t.world action).toList.filter (fun h => n ∈ h.networks) := by
  rw [reaching, (step_spec hstep).2, List.filter_append]
  rfl

/-- A packet on a connection was there before, or is handed over by this step. -/
theorem mem_reaching_step (hstep : t.step action = some t') (hh : h ∈ reaching n t') :
    h ∈ reaching n t ∨ handing t.world action = some h ∧ n ∈ h.networks := by
  rw [reaching_step hstep n] at hh
  rcases List.mem_append.mp hh with hold | hnew
  · exact .inl hold
  · obtain ⟨hmem, hn⟩ := List.mem_filter.mp hnew
    exact .inr ⟨Option.mem_toList.mp hmem, of_decide_eq_true hn⟩

theorem requests_step (hI : Handover.Background t) (hstep : t.step action = some t') (n : Nat) :
    ∃ more, requests n t' = requests n t ++ more := by
  have same : requests n t' = (reaching n t').map (fun h => origin h.task t.world.log) := by
    apply List.map_congr_left
    intro h hh
    exact origin_of_handed hI hstep (List.mem_filter.mp hh).1
  rw [same, reaching_step hstep n, List.map_append]
  exact ⟨_, rfl⟩

theorem passed_step (hI : Ordered t) (hturn : takesTurn t action) (hstep : t.step action = some t')
    (hk : k ∈ reaching n t') {q : Nat} (hq : origin k.task t'.world.log = some q)
    {d : Nat × Publish} (hd : d ∈ due t'.world) (hlt : d.1 < q) (hflow : SameFlow d.2 k.publish) :
    some d.1 ∈ requests n t := by
  rw [origin_of_handed hI.background hstep (List.mem_filter.mp hk).1] at hq
  have bound := origin_le hq
  have hdue : d ∈ due t.world := by
    rcases due_of_moved hI.background (step_spec hstep).1 hd with hold | hlate
    · exact hold
    · omega
  rcases mem_reaching_step hstep hk with hold | ⟨hh, hn⟩
  · exact hI.passed n k hold q hq d hdue hlt hflow
  · exact hturn k hh n hn d hdue ⟨q, hq, hlt⟩ hflow

/-- A request that reaches a connection for the first time is not overtaken there. -/
theorem not_overtaken (hI : Ordered t) (hh : handing t.world action = some h)
    (hk : k ∈ reaching n t) (hflow : SameFlow h.publish k.publish) {o q : Nat}
    (ho : origin h.task t.world.log = some o) (hq : origin k.task t.world.log = some q)
    (hlt : o < q) : some o ∈ requests n t := by
  obtain ⟨task, a, original, _, hget, _, _, _, hpublished, hprog, hpacket⟩ :=
    handing_spec hI.background.track hh
  have hcopy : h.publish = original ∨ h.publish = { original with dup := true } :=
    hpacket.imp And.right And.right
  have hdue : (o, original) ∈ due t.world :=
    mem_due.mpr (.inl ⟨h.task, task, hget, ho, hprog, hpublished⟩)
  exact hI.passed n k hk q hq _ hdue hlt ((sameFlow_of_copy hcopy).trans hflow)

/-- A packet of before and one of after a step, for the same request. -/
theorem sameFlow_step (hI : Ordered t) (hstep : t.step action = some t') (hh : h ∈ t'.handed)
    (hk : k ∈ t.handed) {o : Nat} (ho : origin h.task t.world.log = some o)
    (ho' : origin k.task t.world.log = some o) : SameFlow h.publish k.publish := by
  have later : k ∈ t'.handed := by
    rw [(step_spec hstep).2]
    exact List.mem_append_left _ hk
  exact sameFlow_of_origin (background_of_step hI.background hstep) hh later
    ((origin_of_handed hI.background hstep hh).trans ho)
    ((origin_of_handed hI.background hstep later).trans ho')

theorem keeps_step (hI : Ordered t) (hstep : t.step action = some t') : KeepsOrder t' := by
  intro n h hh k hk hflow o q ho hq hlt
  have hh' := (List.mem_filter.mp hh).1
  have hk' := (List.mem_filter.mp hk).1
  rw [origin_of_handed hI.background hstep hh'] at ho
  rw [origin_of_handed hI.background hstep hk'] at hq
  obtain ⟨more, hmore⟩ := requests_step hI.background hstep n
  have known : some o ∈ requests n t := by
    rcases mem_reaching_step hstep hh with hold | ⟨hnew, _⟩
    · exact ho ▸ mem_requests hold
    · rcases mem_reaching_step hstep hk with hold' | ⟨hnew', _⟩
      · exact not_overtaken hI hnew hold' hflow ho hq hlt
      · cases hnew.symm.trans hnew'
        cases ho.symm.trans hq
        omega
  rw [hmore, List.idxOf_append_of_mem known]
  by_cases later : some q ∈ requests n t
  · rw [List.idxOf_append_of_mem later]
    obtain ⟨h₀, hh₀, ho₀⟩ := List.mem_map.mp known
    obtain ⟨k₀, hk₀, hq₀⟩ := List.mem_map.mp later
    have first := sameFlow_step hI hstep hh' (List.mem_filter.mp hh₀).1 ho ho₀
    have second := sameFlow_step hI hstep hk' (List.mem_filter.mp hk₀).1 hq hq₀
    exact hI.keeps n h₀ hh₀ k₀ hk₀ ((first.symm.trans hflow).trans second) o q ho₀ hq₀ hlt
  · rw [List.idxOf_append_of_notMem later]
    have := List.idxOf_lt_length_of_mem known
    omega

theorem ordered_step (hI : Ordered t) (hturn : takesTurn t action)
    (hstep : t.step action = some t') : Ordered t' := by
  refine ⟨background_of_step hI.background hstep, keeps_step hI hstep, ?_⟩
  intro n k hk q hq d hd hlt hflow
  obtain ⟨more, hmore⟩ := requests_step hI.background hstep n
  rw [hmore]
  exact List.mem_append_left _ (passed_step hI hturn hstep hk hq hd hlt hflow)

end Steps

/-- In every run in which a publish reaches a connection only after the publishes of its
flow that were taken in before it and are still due, the order is kept. -/
theorem order_kept {options : MqttOptions} {protocol : Protocol} {t : Traced}
    (h : Reachable Traced.step takesTurn (.init options protocol) t) : KeepsOrder t := by
  have ordered : Ordered t := by
    refine h.invariant ⟨background_init options protocol, ?_, ?_⟩ ?_
    · intro n h hh
      cases hh
    · intro n k hk
      cases hk
    · intro s action s' _ hI hturn hstep
      exact ordered_step hI hturn hstep
  exact ordered.keeps

/-- Two publishes with QoS1 in one flow. -/
def twoPublishes : List Action :=
  [.hub (.connect 0), .network 0 (.connected false), .hub (.connecting 0), .hub .load,
    .hub .resend,
    .request (.PublishQoS1 (.init .AtLeastOnce "a" [1] false .V4 7)), .hub (.recv 1),
    .request (.PublishQoS1 (.init .AtLeastOnce "a" [2] false .V4 8)), .hub (.recv 1)]

/-- Both are resent after a reconnection, each task after the one before it. -/
theorem order_kept_in_turn :
    ∃ t, guardedRun Traced.step takesTurn (.init ⟨60, true⟩ .V4)
        (twoPublishes ++
          [.task 0 .run, .task 1 .run, .network 0 (.readErr "read 0 byte from network"),
            .hub (.network 3), .hub .disconnect, .hub (.connect 0), .network 1 (.connected false),
            .hub (.connecting 4), .hub .load, .hub .resend, .hub .resend, .hub .resend,
            .task 2 .run, .task 3 .run]) = some t ∧ KeepsOrder t :=
  end_of_guardedRun _ (by decide +kernel) (fun _ h => order_kept h)

/-- The task of the second publish runs first. -/
theorem second_overtakes :
    ∃ t, Reachable Traced.step free (.init ⟨60, true⟩ .V4) t ∧ ¬KeepsOrder t := by
  obtain ⟨t, hreachable, h, hh, k, hk, hflow, ho, hq, hlt⟩ :
      ∃ t, Reachable Traced.step free (.init ⟨60, true⟩ .V4) t ∧
        ∃ h ∈ reaching 0 t, ∃ k ∈ reaching 0 t, SameFlow h.publish k.publish ∧
          origin h.task t.world.log = some 3 ∧ origin k.task t.world.log = some 6 ∧
          ¬(requests 0 t).idxOf (some 3) < (requests 0 t).idxOf (some 6) :=
    exists_of_guardedRun (twoPublishes ++ [.task 1 .run, .task 0 .run]) (by decide +kernel)
  exact ⟨t, hreachable, fun hP => hlt (hP 0 h hh k hk hflow 3 6 ho hq (by decide))⟩

end PublishOrder
