import Mathlib.Logic.Basic

/-!
# Guarded runs of a deterministic step function

A system is a partial step function `step : σ → α → Option σ`; all its
nondeterminism is in the choice of the action. A guard `ok` restricts the
actions that a run may take, by the state before the step. The rules below
are the induction principles over such runs; nothing here names a program.
-/

namespace GuardedRuns

universe u v
variable {σ : Type u} {α : Type v}

/-- States reached from `start` by enabled actions that the guard allows. -/
inductive Reachable (step : σ → α → Option σ) (ok : σ → α → Prop) (start : σ) :
    σ → Prop where
  | start : Reachable step ok start start
  | next {s s' : σ} {a : α} :
      Reachable step ok start s → ok s a → step s a = some s' →
      Reachable step ok start s'

/-- The guard that allows every action. -/
def free : σ → α → Prop := fun _ _ => True

instance (s : σ) (a : α) : Decidable (free s a) := inferInstanceAs (Decidable True)

variable {step : σ → α → Option σ} {ok : σ → α → Prop} {start s : σ}

/-- Invariant rule: the step hypothesis may use that the state before is reachable. -/
theorem Reachable.invariant {I : σ → Prop} (init : I start)
    (preserved : ∀ s a s', Reachable step ok start s → I s → ok s a →
      step s a = some s' → I s')
    (h : Reachable step ok start s) : I s := by
  induction h with
  | start => exact init
  | next hr hok hs ih => exact preserved _ _ _ hr ih hok hs

theorem Reachable.trans {t s' : σ} (h : Reachable step ok start t) (h' : Reachable step ok t s') :
    Reachable step ok start s' := by
  induction h' with
  | start => exact h
  | next _ hok hs ih => exact .next ih hok hs

/-- Some continuation whose steps meet the guard ends in `P`. -/
def CanReach (step : σ → α → Option σ) (ok : σ → α → Prop) (P : σ → Prop) (s : σ) : Prop :=
  ∃ s', Reachable step ok s s' ∧ P s'

theorem CanReach.now {P : σ → Prop} (h : P s) : CanReach step ok P s := ⟨s, .start, h⟩

theorem CanReach.after {P : σ → Prop} {a : α} {s' : σ} (h : CanReach step ok P s')
    (hok : ok s a) (hs : step s a = some s') : CanReach step ok P s := by
  obtain ⟨t, hreach, hP⟩ := h
  exact ⟨t, (Reachable.next .start hok hs).trans hreach, hP⟩

/-- A continuation may be continued from wherever it ends. -/
theorem CanReach.bind {P Q : σ → Prop} (h : CanReach step ok P s)
    (next : ∀ s', Reachable step ok s s' → P s' → CanReach step ok Q s') :
    CanReach step ok Q s := by
  obtain ⟨t, hreach, hP⟩ := h
  obtain ⟨u, hreach', hQ⟩ := next t hreach hP
  exact ⟨u, hreach.trans hreach', hQ⟩

theorem Reachable.mono {ok' : σ → α → Prop} (weaker : ∀ s a, ok s a → ok' s a)
    (h : Reachable step ok start s) : Reachable step ok' start s := by
  induction h with
  | start => exact .start
  | next _ hok hs ih => exact .next ih (weaker _ _ hok) hs

theorem CanReach.mono {ok' : σ → α → Prop} {P Q : σ → Prop} (weaker : ∀ s a, ok s a → ok' s a)
    (less : ∀ s, P s → Q s) (h : CanReach step ok P s) : CanReach step ok' Q s := by
  obtain ⟨t, hreach, hP⟩ := h
  exact ⟨t, hreach.mono weaker, less t hP⟩

/-- Run a list of actions; a disabled action stops the run. -/
def run (step : σ → α → Option σ) : σ → List α → Option σ
  | s, [] => some s
  | s, a :: rest => (step s a).bind (fun s' => run step s' rest)

theorem run_one {a : α} {s s' : σ} (stepped : step s a = some s') :
    run step s [a] = some s' := by
  rw [run, stepped]
  rfl

theorem run_append (first second : List α) :
    ∀ s, run step s (first ++ second) = (run step s first).bind fun s' => run step s' second := by
  induction first with
  | nil => exact fun _ => rfl
  | cons a rest ih =>
    intro s
    simp only [List.cons_append, run, ih, Option.bind_assoc]

theorem reachable_of_run {acts : List α} {s' : σ} (h : Reachable step free start s)
    (hrun : run step s acts = some s') : Reachable step free start s' := by
  induction acts generalizing s with
  | nil =>
    simp only [run, Option.some.injEq] at hrun
    exact hrun ▸ h
  | cons a rest ih =>
    obtain ⟨t, hstep, htail⟩ := Option.bind_eq_some_iff.mp hrun
    exact ih (.next h trivial hstep) htail

/-- Run a list of actions, checking the guard before each of them. -/
def guardedRun (step : σ → α → Option σ) (ok : σ → α → Prop)
    [∀ s a, Decidable (ok s a)] : σ → List α → Option σ
  | s, [] => some s
  | s, a :: rest =>
    if ok s a then (step s a).bind (fun s' => guardedRun step ok s' rest) else none

theorem reachable_of_guardedRun [∀ s a, Decidable (ok s a)] {acts : List α} {s' : σ}
    (h : Reachable step ok start s) (hrun : guardedRun step ok s acts = some s') :
    Reachable step ok start s' := by
  induction acts generalizing s with
  | nil =>
    simp only [guardedRun, Option.some.injEq] at hrun
    exact hrun ▸ h
  | cons a rest ih =>
    simp only [guardedRun] at hrun
    split at hrun
    · next hok =>
      obtain ⟨t, hstep, htail⟩ := Option.bind_eq_some_iff.mp hrun
      exact ih (.next h hok hstep) htail
    · cases hrun

/-- What holds of every reachable state holds at the end of an evaluated run. -/
theorem end_of_guardedRun [∀ s a, Decidable (ok s a)] {P : σ → Prop} (acts : List α)
    (hrun : (guardedRun step ok start acts).isSome = true)
    (hP : ∀ s, Reachable step ok start s → P s) :
    ∃ s, guardedRun step ok start acts = some s ∧ P s := by
  obtain ⟨s, hs⟩ := Option.isSome_iff_exists.mp hrun
  exact ⟨s, hs, hP s (reachable_of_guardedRun .start hs)⟩

/-- A reachable state with a decidable property, from one evaluated run. -/
theorem exists_of_guardedRun [∀ s a, Decidable (ok s a)] {P : σ → Prop} [DecidablePred P]
    (acts : List α)
    (h : (guardedRun step ok start acts).any (fun s => decide (P s)) = true) :
    ∃ s, Reachable step ok start s ∧ P s := by
  obtain ⟨s, hs, hp⟩ := (Option.any_eq_true _ _).mp h
  exact ⟨s, reachable_of_guardedRun .start hs, of_decide_eq_true hp⟩

theorem guardedRun_append [∀ s a, Decidable (ok s a)] (first second : List α) :
    ∀ s, guardedRun step ok s (first ++ second) =
      (guardedRun step ok s first).bind fun s' => guardedRun step ok s' second := by
  induction first with
  | nil => exact fun _ => rfl
  | cons a rest ih =>
    intro s
    simp only [List.cons_append, guardedRun]
    split
    · simp only [ih, Option.bind_assoc]
    · rfl

/-- A run in two parts: the first one is evaluated, the second one follows from where it ends. -/
theorem end_of_parts [∀ s a, Decidable (ok s a)] {P Q : σ → Prop} [DecidablePred Q]
    (first second : List α)
    (h : (guardedRun step ok start first).any (fun s => decide (Q s)) = true)
    (next : ∀ s, Reachable step ok start s → Q s →
      ∃ s', guardedRun step ok s second = some s' ∧ P s') :
    ∃ s', guardedRun step ok start (first ++ second) = some s' ∧ P s' := by
  obtain ⟨s, hs, hQ⟩ := (Option.any_eq_true _ _).mp h
  obtain ⟨s', hsecond, hP⟩ := next s (reachable_of_guardedRun .start hs) (of_decide_eq_true hQ)
  exact ⟨s', by rw [guardedRun_append, hs, Option.bind_some, hsecond], hP⟩

/-- `P` holds in every state that the action list visits. -/
def AllStates (step : σ → α → Option σ) (P : σ → Prop) : σ → List α → Prop
  | s, [] => P s
  | s, a :: rest => P s ∧ ∀ s', step s a = some s' → AllStates step P s' rest

/-- `ok` holds before every step that the action list takes. -/
def AllSteps (step : σ → α → Option σ) (ok : σ → α → Prop) : σ → List α → Prop
  | _, [] => True
  | s, a :: rest => ∀ s', step s a = some s' → ok s a ∧ AllSteps step ok s' rest

theorem AllStates.head {P : σ → Prop} {acts : List α} (h : AllStates step P s acts) :
    P s := by
  cases acts with
  | nil => exact h
  | cons a rest => exact h.1

theorem AllStates.last {P : σ → Prop} {acts : List α} {s' : σ} (h : AllStates step P s acts)
    (hrun : run step s acts = some s') : P s' := by
  induction acts generalizing s with
  | nil =>
    simp only [run, Option.some.injEq] at hrun
    exact hrun ▸ h
  | cons a rest ih =>
    obtain ⟨t, hstep, htail⟩ := Option.bind_eq_some_iff.mp hrun
    exact ih (h.2 t hstep) htail

/-- When, from every state with the background invariant `J` and with `P`, a
step keeps `P` exactly if its guard holds, then a run stays in `P` exactly if
all its steps meet the guard. -/
theorem allStates_iff_allSteps {J P : σ → Prop}
    (background : ∀ s a s', J s → step s a = some s' → J s')
    (exact_step : ∀ s a s', J s → P s → step s a = some s' → (ok s a ↔ P s'))
    (acts : List α) (hJ : J s) (hP : P s) :
    AllStates step P s acts ↔ AllSteps step ok s acts := by
  induction acts generalizing s with
  | nil => exact iff_of_true hP trivial
  | cons a rest ih =>
    constructor
    · intro h s' hs
      have tail := h.2 s' hs
      have hP' := tail.head
      exact ⟨(exact_step s a s' hJ hP hs).mpr hP', (ih (background s a s' hJ hs) hP').mp tail⟩
    · intro h
      refine ⟨hP, fun s' hs => ?_⟩
      obtain ⟨hok, htail⟩ := h s' hs
      have hP' := (exact_step s a s' hJ hP hs).mp hok
      exact (ih (background s a s' hJ hs) hP').mpr htail

/-- Two guards that agree in every state with the background invariant `J` are met
by the same runs. -/
theorem allSteps_iff {J : σ → Prop} {ok' : σ → α → Prop}
    (background : ∀ s a s', J s → step s a = some s' → J s')
    (same : ∀ s a s', J s → step s a = some s' → (ok s a ↔ ok' s a))
    (acts : List α) (hJ : J s) : AllSteps step ok s acts ↔ AllSteps step ok' s acts := by
  induction acts generalizing s with
  | nil => exact Iff.rfl
  | cons a rest ih =>
    refine forall_congr' fun s' => forall_congr' fun hs => ?_
    exact and_congr (same s a s' hJ hs) (ih (background s a s' hJ hs))

/-- Each counted action costs the measure one and no action adds to it, so a run
has no more of them than the measure has at its start. -/
theorem countP_le_of_measure {J : σ → Prop} {μ : σ → Nat} {p : α → Bool}
    (background : ∀ s a s', J s → step s a = some s' → J s')
    (drops : ∀ s a s', J s → step s a = some s' → (if p a then 1 else 0) + μ s' ≤ μ s)
    {acts : List α} {s' : σ} (hJ : J s) (hrun : run step s acts = some s') :
    acts.countP p + μ s' ≤ μ s := by
  induction acts generalizing s with
  | nil =>
    simp only [run, Option.some.injEq] at hrun
    exact Nat.le_of_eq (by rw [hrun, List.countP_nil, Nat.zero_add])
  | cons a rest ih =>
    obtain ⟨t, hstep, htail⟩ := Option.bind_eq_some_iff.mp hrun
    have tail := ih (background s a t hJ hstep) htail
    have head := drops s a t hJ hstep
    rw [List.countP_cons]
    omega

/-- The steps behind a part of a run that meets the guard meet it too. -/
theorem AllSteps.behind {first second : List α} {s' : σ}
    (h : AllSteps step ok s (first ++ second)) (hrun : run step s first = some s') :
    AllSteps step ok s' second := by
  induction first generalizing s with
  | nil =>
    simp only [run, Option.some.injEq] at hrun
    exact hrun ▸ h
  | cons a rest ih =>
    obtain ⟨t, hstep, htail⟩ := Option.bind_eq_some_iff.mp hrun
    exact ih (h t hstep).2 htail

/-! ## Histories -/

section Histories

variable {ε : Type u} {P : ε → List ε → Prop} {log events : List ε}

/-- Every event of a history, newest first, stands in `P` to what is older. -/
def Throughout (P : ε → List ε → Prop) : List ε → Prop
  | [] => True
  | event :: older => P event older ∧ Throughout P older

theorem Throughout.split {newer older : List ε} {event : ε}
    (h : Throughout P (newer ++ event :: older)) : P event older := by
  induction newer with
  | nil => exact h.1
  | cons first newer ih => exact ih h.2

theorem Throughout.append (h : Throughout P log) (hnew : ∀ event ∈ events, ∀ older, P event older) :
    Throughout P (events ++ log) := by
  induction events with
  | nil => exact h
  | cons event events ih =>
    exact ⟨hnew event List.mem_cons_self _, ih (fun e he => hnew e (List.mem_cons_of_mem _ he))⟩

theorem Throughout.older {newer : List ε} (h : Throughout P (newer ++ log)) : Throughout P log := by
  induction newer with
  | nil => exact h
  | cons event newer ih => exact ih h.2

theorem Throughout.of_mem {event : ε} (h : Throughout P log) (hmem : event ∈ log) :
    ∃ older, older ⊆ log ∧ P event older := by
  obtain ⟨newer, older, rfl⟩ := List.append_of_mem hmem
  exact ⟨older, fun _ h => List.mem_append_right _ (List.mem_cons_of_mem _ h), h.split⟩

end Histories

end GuardedRuns
