import ForMqttClient.Handover
import ForMqttClient.PublishRoundTrip

/-!
# Publishes that are sent again

A timeout repeats a PUBLISH with DUP set. A publish that is resent after a
reconnection gets a new task, and this one begins without DUP again.
-/

namespace Redelivery

open MqttData TaskHub Tasks System SystemSteps TaskRuns GuardedRuns Handover

/-! ## The bytes -/

/-- The bytes of `data()` and of `dup_data()`. -/
def data (publish : Publish) : Bytes := (Codec.Publish.write publish []).1

/-- The DUP flag of a packet. -/
def dupFlag : Bytes → Bool
  | [] => false
  | byte1 :: _ => byte1 &&& 0b1000 ≠ 0

def withDup : Bytes → Bytes
  | [] => []
  | byte1 :: rest => (byte1 ||| 0b1000) :: rest

theorem data_eq (publish : Publish) :
    data publish = Codec.Publish.byte1 publish ::
      (Codec.encodedLength (Codec.Publish.len publish) ++ Codec.Publish.body publish) := by
  rw [data, Codec.Publish.write_eq]
  rfl

theorem dupFlag_data (publish : Publish) : dupFlag (data publish) = publish.dup := by
  rw [data_eq]
  exact (Codec.Publish.byte1_facts publish).2.2.1

/-- `dup_data` changes nothing but the flag. -/
theorem data_dup (publish : Publish) :
    data { publish with dup := true } = withDup (data publish) := by
  have finite : ∀ byte : UInt8, ∀ dup : Bool,
      byte ||| true.toUInt8 <<< 3 = byte ||| dup.toUInt8 <<< 3 ||| 0b1000 := by
    intro byte dup
    rw [UInt8.or_assoc]
    cases dup <;> rfl
  have byte1 : Codec.Publish.byte1 { publish with dup := true } =
      Codec.Publish.byte1 publish ||| 0b1000 := finite _ publish.dup
  rw [data_eq, data_eq, byte1]
  rfl

/-! ## The packets of one request -/

/-- What was handed over for the request taken in at `o`, oldest first. -/
def packetsOf (t : Traced) (o : Nat) : List Publish :=
  (t.handed.filter (fun h => origin h.task t.world.log = some o)).map (·.publish)

/-- The first packet has DUP = 0. The later ones have DUP = 1, and else its bytes. -/
def Marked : List Publish → Prop
  | [] => True
  | first :: later => dupFlag (data first) = false ∧
    ∀ publish ∈ later, dupFlag (data publish) = true ∧ data publish = withDup (data first)

/-- DUP marks every re-delivery of every request. -/
def MarksRedelivery (t : Traced) : Prop := ∀ o, Marked (packetsOf t o)

/-- A task hands over its first packet only if no other task has handed one over for
the same request. -/
def beginsAlone (t : Traced) : Action → Prop
  | .task i .run => handing t.world (.task i .run) ≠ none →
    ∀ h ∈ t.handed, h.task ≠ i → origin h.task t.world.log ≠ origin i t.world.log
  | _ => True

section Lists

variable {packets : List Publish} {publish : Publish}

theorem marked_of_copies (h : Copies publish packets) (hdup : publish.dup = false) :
    Marked packets := by
  cases packets with
  | nil => trivial
  | cons first later =>
    obtain ⟨rfl, hlater⟩ := h
    refine ⟨(dupFlag_data first).trans hdup, ?_⟩
    intro q hq
    rw [hlater q hq]
    exact ⟨dupFlag_data _, data_dup first⟩

theorem nil_of_marked_append (h : Marked (packets ++ [publish])) (hdup : publish.dup = false) :
    packets = [] := by
  cases packets with
  | nil => rfl
  | cons first later =>
    have flag := (h.2 publish (List.mem_append_right _ (List.mem_singleton_self _))).1
    rw [dupFlag_data, hdup] at flag
    cases flag

/-- Only the head of a marked list has no DUP. -/
theorem head_of_marked {handed : List Handing} {h : Handing}
    (hmarked : Marked (handed.map (·.publish))) (hmem : h ∈ handed)
    (hdup : h.publish.dup = false) : handed.head? = some h := by
  cases handed with
  | nil => cases hmem
  | cons first later =>
    rcases List.mem_cons.mp hmem with rfl | hlater
    · rfl
    · have flag := (hmarked.2 h.publish (List.mem_map_of_mem hlater)).1
      rw [dupFlag_data, hdup] at flag
      cases flag

end Lists

theorem original_dup {spec : TaskSpec} {original : Publish}
    (hpublished : published spec = some original) : original.dup = false := by
  cases spec <;> cases hpublished <;> rfl

section Steps

variable {t t' : Traced} {action : Action}

/-- A task that has handed something over has handed over a packet without DUP. -/
theorem first_of_task (hI : Background t) {h : Handing} (hh : h ∈ t.handed) :
    ∃ first ∈ t.handed, first.task = h.task ∧ first.publish.dup = false := by
  obtain ⟨task, original, hget, hpublished⟩ := hI.known h hh
  have copies := (hI.senders h.task task original hget hpublished).copies
  have hmine := mem_mine hh
  cases heq : mine h.task t.handed with
  | nil =>
    rw [heq] at hmine
    cases hmine
  | cons publish later =>
    have hhead : publish ∈ mine h.task t.handed := heq ▸ List.mem_cons_self
    rw [heq] at copies
    obtain ⟨first, hfirst, rfl⟩ := List.mem_map.mp hhead
    obtain ⟨hmem, htask⟩ := List.mem_filter.mp hfirst
    refine ⟨first, hmem, of_decide_eq_true htask, ?_⟩
    rw [copies.1]
    exact original_dup hpublished

/-- While re-deliveries are marked, one task sends for each request. -/
theorem one_task (hI : Background t) (hP : MarksRedelivery t) {h k : Handing} (hh : h ∈ t.handed)
    (hk : k ∈ t.handed) {o : Nat} (ho : origin h.task t.world.log = some o)
    (ho' : origin k.task t.world.log = some o) : h.task = k.task := by
  obtain ⟨first, hfirst, htask, hdup⟩ := first_of_task hI hh
  obtain ⟨first', hfirst', htask', hdup'⟩ := first_of_task hI hk
  have head := head_of_marked (hP o)
    (List.mem_filter.mpr ⟨hfirst, decide_eq_true (htask ▸ ho)⟩) hdup
  have head' := head_of_marked (hP o)
    (List.mem_filter.mpr ⟨hfirst', decide_eq_true (htask' ▸ ho')⟩) hdup'
  rw [← htask, ← htask', Option.some.inj (head.symm.trans head')]

theorem packetsOf_step (hI : Background t) (hstep : t.step action = some t') (o : Nat) :
    packetsOf t' o = packetsOf t o ++
      ((handing t.world action).toList.filter
        (fun h => origin h.task t.world.log = some o)).map (·.publish) := by
  have filtered : t'.handed.filter (fun h => origin h.task t'.world.log = some o) =
      t'.handed.filter (fun h => origin h.task t.world.log = some o) := by
    apply List.filter_congr
    intro h hh
    rw [origin_of_handed hI hstep hh]
  rw [packetsOf, filtered, (step_spec hstep).2, List.filter_append, List.map_append]
  rfl

/-- Where re-deliveries are marked, the packets of a request are those of its task. -/
theorem packetsOf_eq_mine (hI : Background t) (hP : MarksRedelivery t) {i : Nat} {o : Nat}
    (ho : origin i t.world.log = some o) (hbegun : mine i t.handed ≠ []) :
    packetsOf t o = mine i t.handed := by
  obtain ⟨publish, hpublish⟩ := List.exists_mem_of_ne_nil _ hbegun
  obtain ⟨first, hfirst, _⟩ := List.mem_map.mp hpublish
  obtain ⟨hmem, htask⟩ := List.mem_filter.mp hfirst
  obtain rfl := of_decide_eq_true htask
  refine congrArg (List.map Handing.publish) (List.filter_congr ?_)
  intro h hh
  rw [decide_eq_decide]
  constructor
  · intro hsame
    exact one_task hI hP hh hmem hsame ho
  · rintro heq
    rw [heq]
    exact ho

/-- The first packet of a task keeps the law exactly if it is the first of its request. -/
theorem begins_iff (hI : Background t) (hP : MarksRedelivery t) {h : Handing}
    (hh : handing t.world action = some h) {task : Task} (hget : t.world.tasks[h.task]? = some task)
    (hpublished : published task.spec = some h.publish) (hprog : task.prog = task.spec.run)
    (hphase : task.phase = .ready) (hstep : t.step action = some t') :
    (∀ k ∈ t.handed, k.task ≠ h.task →
        origin k.task t.world.log ≠ origin h.task t.world.log) ↔ MarksRedelivery t' := by
  obtain ⟨o, ho, _⟩ := hI.sourced h.task task hget (by simp [hpublished])
  have fresh := (hI.senders h.task task h.publish hget hpublished).fresh hprog hphase
  have grown (q : Nat) : packetsOf t' q =
      packetsOf t q ++ if q = o then [h.publish] else [] := by
    rw [packetsOf_step hI hstep, hh]
    by_cases hq : q = o
    · simp [ho, hq]
    · simp [ho, Ne.symm hq, hq]
  have alone : (∀ k ∈ t.handed, k.task ≠ h.task →
      origin k.task t.world.log ≠ origin h.task t.world.log) ↔ packetsOf t o = [] := by
    rw [packetsOf, List.map_eq_nil_iff, List.filter_eq_nil_iff]
    constructor
    · intro hother k hk hsame
      have own : k.task ≠ h.task := by
        intro heq
        have hmem : k.publish ∈ mine h.task t.handed :=
          List.mem_map_of_mem (List.mem_filter.mpr ⟨hk, decide_eq_true heq⟩)
        rw [fresh] at hmem
        cases hmem
      exact hother k hk own ((of_decide_eq_true hsame).trans ho.symm)
    · intro hnone k hk _ heq
      exact hnone k hk (decide_eq_true (heq.trans ho))
  rw [alone]
  constructor
  · intro hempty q
    rw [grown q]
    by_cases hq : q = o
    · rw [if_pos hq, hq, hempty]
      exact ⟨(dupFlag_data _).trans (original_dup hpublished), fun _ h => absurd h List.not_mem_nil⟩
    · rw [if_neg hq, List.append_nil]
      exact hP q
  · intro hP'
    have hmarked := hP' o
    rw [grown o, if_pos rfl] at hmarked
    exact nil_of_marked_append hmarked (original_dup hpublished)

/-- A repeated packet keeps the law. -/
theorem marked_of_repeat (hI : Background t) (hP : MarksRedelivery t) {h : Handing}
    (hh : handing t.world action = some h) {task : Task} {original : Publish}
    (hget : t.world.tasks[h.task]? = some task)
    (hpublished : published task.spec = some original) (hprog : task.prog = task.spec.run)
    (hphase : task.phase = .waiting) (hdup : h.publish = { original with dup := true })
    (hstep : t.step action = some t') : MarksRedelivery t' := by
  obtain ⟨o, ho, _⟩ := hI.sourced h.task task hget (by simp [hpublished])
  have sender := hI.senders h.task task original hget hpublished
  have begun := begun_of_waiting sender hprog hphase
  intro q
  rw [packetsOf_step hI hstep, hh]
  by_cases hq : q = o
  · have own : packetsOf t o = mine h.task t.handed := packetsOf_eq_mine hI hP ho begun
    have copies : Copies original (packetsOf t o ++ [h.publish]) :=
      copies_append (own ▸ sender.copies) (own ▸ begun) hdup
    simpa [ho, hq] using marked_of_copies copies (original_dup hpublished)
  · simpa [ho, Ne.symm hq] using hP q

/-- A step keeps the law exactly if it does not begin a request for the second time. -/
theorem marks_step (hI : Background t) (hP : MarksRedelivery t)
    (hstep : t.step action = some t') : beginsAlone t action ↔ MarksRedelivery t' := by
  cases hh : handing t.world action with
  | none =>
    have same : MarksRedelivery t' := by
      intro o
      rw [packetsOf_step hI hstep, hh]
      simpa using hP o
    refine iff_of_true ?_ same
    unfold beginsAlone
    split
    · exact fun hsome => absurd hh hsome
    · trivial
  | some h =>
    obtain ⟨task, a, original, haction, hget, hsends, _, _, hpublished, hprog, hpacket⟩ :=
      handing_spec hI.track hh
    rcases hpacket with ⟨hphase, rfl⟩ | ⟨hphase, hdup⟩
    · rw [← begins_iff hI hP hh hget hpublished hprog hphase hstep]
      have hrun : a = .run := by
        cases a with
        | run => rfl
        | timeout => simp [sends, hphase] at hsends
        | _ => cases hsends
      subst hrun haction
      exact ⟨fun hok => hok (by simp [hh]), fun hother _ => hother⟩
    · refine iff_of_true ?_ (marked_of_repeat hI hP hh hget hpublished hprog hphase hdup hstep)
      subst haction
      cases a with
      | run => simp [sends, hphase] at hsends
      | _ => trivial

end Steps

/-- In a run every re-delivery is marked exactly if every request is begun by one
task only. -/
theorem redelivery_marked_iff (options : MqttOptions) (protocol : Protocol)
    (actions : List Action) :
    AllStates Traced.step MarksRedelivery (.init options protocol) actions ↔
      AllSteps Traced.step beginsAlone (.init options protocol) actions :=
  allStates_iff_allSteps (fun _ _ _ hI hstep => background_of_step hI hstep)
    (fun _ _ _ hI hP hstep => marks_step hI hP hstep) actions
    (background_init options protocol) (fun _ => trivial)

/-- A publish with QoS1 whose connection is lost before the PUBACK. -/
def resent : List Action :=
  [.hub (.connect 0), .network 0 (.connected false), .hub (.connecting 0), .hub .load,
    .hub .resend,
    .request (.PublishQoS1 (.init .AtLeastOnce "a" [] false .V4 7)), .hub (.recv 1),
    .task 0 .run, .network 0 (.take 1 none), .task 0 .receipt,
    .network 0 (.readErr "read 0 byte from network"), .hub (.network 1), .hub .disconnect,
    .hub (.connect 0), .network 1 (.connected false), .hub (.connecting 2), .hub .load,
    .hub .resend, .hub .resend, .task 1 .run]

/-- The PUBLISH that is resent on the second connection has no DUP. -/
theorem resent_without_dup :
    ∃ t, Reachable Traced.step free (.init ⟨60, true⟩ .V4) t ∧ ¬MarksRedelivery t := by
  obtain ⟨t, hreachable, hpackets⟩ : ∃ t, Reachable Traced.step free (.init ⟨60, true⟩ .V4) t ∧
      packetsOf t 3 =
        [.new "a" (.AtLeastOnce 1) [] false .V4, .new "a" (.AtLeastOnce 1) [] false .V4] :=
    exists_of_guardedRun resent (by decide +kernel)
  refine ⟨t, hreachable, fun hP => ?_⟩
  have hmarked := hP 3
  rw [hpackets] at hmarked
  have flag := (hmarked.2 _ (List.mem_singleton_self _)).1
  rw [dupFlag_data] at flag
  cases flag

end Redelivery
