import Mathlib.Data.List.Basic

/-!
# Handing a message on once

A sender publishes a message under a token until it hears that it came, and then
releases the token until it hears that, too. The receiver hands a message on when it
is published under a token that it does not hold. The sender may repeat each signal,
and signals may be lost on the way; they do not overtake each other.
-/

namespace TwoPhase

inductive Signal (M : Type) where
  | publish (message : M)
  | release
  deriving DecidableEq, Repr

variable {M : Type}

/-- Whether the receiver holds the token behind the signals. -/
def holds (held : Bool) : List (Signal M) → Bool
  | [] => held
  | .publish _ :: rest => holds true rest
  | .release :: rest => holds false rest

/-- What the receiver hands on. -/
def handsOn (held : Bool) : List (Signal M) → List M
  | [] => []
  | .publish message :: rest =>
    if held then handsOn true rest else message :: handsOn true rest
  | .release :: rest => handsOn false rest

/-- Nothing but the message is published. -/
def Publishes (message : M) (signals : List (Signal M)) : Prop :=
  ∀ signal ∈ signals, signal = .publish message

def Releases (signals : List (Signal M)) : Prop := ∀ signal ∈ signals, signal = .release

section Receiver

variable {message : M} {signals first second : List (Signal M)} {held : Bool}

theorem holds_append (held : Bool) (first second : List (Signal M)) :
    holds held (first ++ second) = holds (holds held first) second := by
  induction first generalizing held with
  | nil => rfl
  | cons signal rest ih => cases signal <;> exact ih _

theorem handsOn_append (held : Bool) (first second : List (Signal M)) :
    handsOn held (first ++ second) =
      handsOn held first ++ handsOn (holds held first) second := by
  induction first generalizing held with
  | nil => rfl
  | cons signal rest ih =>
    cases signal with
    | publish message => cases held <;> simp [handsOn, holds, ih]
    | release => exact ih false

theorem Publishes.sublist (h : Publishes message second) (hsub : first.Sublist second) :
    Publishes message first := fun signal hmem => h signal (hsub.subset hmem)

theorem Releases.sublist (h : Releases second) (hsub : first.Sublist second) : Releases first :=
  fun signal hmem => h signal (hsub.subset hmem)

theorem Publishes.snoc (h : Publishes message signals) :
    Publishes message (signals ++ [.publish message]) := by
  intro signal hmem
  rcases List.mem_append.mp hmem with hold | hnew
  · exact h signal hold
  · exact List.mem_singleton.mp hnew

theorem Releases.snoc (h : Releases signals) : Releases (signals ++ [.release]) := by
  intro signal hmem
  rcases List.mem_append.mp hmem with hold | hnew
  · exact h signal hold
  · exact List.mem_singleton.mp hnew

/-- Repetitions are not handed on. -/
theorem handsOn_repeated (h : Publishes message signals) : handsOn true signals = [] := by
  induction signals with
  | nil => rfl
  | cons signal rest ih =>
    rw [h signal List.mem_cons_self]
    exact ih (h.sublist (List.sublist_cons_self _ _))

theorem handsOn_publishes (h : Publishes message signals) :
    (handsOn held signals).Sublist [message] := by
  cases signals with
  | nil => exact List.nil_sublist _
  | cons signal rest =>
    obtain rfl := h signal List.mem_cons_self
    have none := handsOn_repeated (h.sublist (List.sublist_cons_self _ _))
    cases held <;> simp [handsOn, none]

theorem handsOn_releases (h : Releases signals) : handsOn held signals = [] := by
  induction signals generalizing held with
  | nil => rfl
  | cons signal rest ih =>
    rw [h signal List.mem_cons_self]
    exact ih (h.sublist (List.sublist_cons_self _ _))

end Receiver

/-! ## Whatever is lost -/

/-- Of each part of the signals no more is handed on than was asked for, in that order. -/
def Covers (asked : List M) (signals : List (Signal M)) : Prop :=
  ∀ part, part.Sublist signals → (handsOn false part).Sublist asked

/-- Behind the signals for what was asked before, the message is published. -/
def Publishing (asked : List M) (message : M) (signals : List (Signal M)) : Prop :=
  ∃ before own, signals = before ++ own ∧ Covers asked before ∧ Publishes message own

/-- Behind those that publish it, its token is released. -/
def Releasing (asked : List M) (message : M) (signals : List (Signal M)) : Prop :=
  ∃ before own, signals = before ++ own ∧ Publishing asked message before ∧ Releases own

section Losses

variable {asked : List M} {message : M} {signals part : List (Signal M)}

theorem Covers.nil (asked : List M) : Covers asked [] := by
  intro part hsub
  rw [List.sublist_nil.mp hsub]
  exact List.nil_sublist _

theorem Covers.sublist (h : Covers asked signals) (hsub : part.Sublist signals) :
    Covers asked part := fun piece hpiece => h piece (hpiece.trans hsub)

theorem Publishing.begin (h : Covers asked signals) (message : M) :
    Publishing asked message signals :=
  ⟨signals, [], (List.append_nil _).symm, h, fun _ hmem => absurd hmem List.not_mem_nil⟩

theorem Publishing.snoc (h : Publishing asked message signals) :
    Publishing asked message (signals ++ [.publish message]) := by
  obtain ⟨before, own, rfl, hcovers, hown⟩ := h
  exact ⟨before, own ++ [.publish message], List.append_assoc _ _ _, hcovers, hown.snoc⟩

theorem Publishing.sublist (h : Publishing asked message signals)
    (hsub : part.Sublist signals) : Publishing asked message part := by
  obtain ⟨before, own, rfl, hcovers, hown⟩ := h
  obtain ⟨first, second, rfl, hfirst, hsecond⟩ := List.sublist_append_iff.mp hsub
  exact ⟨first, second, rfl, hcovers.sublist hfirst, hown.sublist hsecond⟩

theorem Releasing.begin (h : Publishing asked message signals) :
    Releasing asked message signals :=
  ⟨signals, [], (List.append_nil _).symm, h, fun _ hmem => absurd hmem List.not_mem_nil⟩

theorem Releasing.snoc (h : Releasing asked message signals) :
    Releasing asked message (signals ++ [.release]) := by
  obtain ⟨before, own, rfl, hpublishing, hown⟩ := h
  exact ⟨before, own ++ [.release], List.append_assoc _ _ _, hpublishing, hown.snoc⟩

theorem Releasing.sublist (h : Releasing asked message signals)
    (hsub : part.Sublist signals) : Releasing asked message part := by
  obtain ⟨before, own, rfl, hpublishing, hown⟩ := h
  obtain ⟨first, second, rfl, hfirst, hsecond⟩ := List.sublist_append_iff.mp hsub
  exact ⟨first, second, rfl, hpublishing.sublist hfirst, hown.sublist hsecond⟩

/-- The message is handed on once at most. -/
theorem Releasing.covers (h : Releasing asked message signals) :
    Covers (asked ++ [message]) signals := by
  intro part hsub
  obtain ⟨before, released, rfl, ⟨earlier, published, rfl, hcovers, hpublished⟩, hreleased⟩ :=
    h.sublist hsub
  rw [handsOn_append, handsOn_releases hreleased, List.append_nil, handsOn_append]
  exact (hcovers earlier (List.Sublist.refl _)).append (handsOn_publishes hpublished)

theorem Publishing.covers (h : Publishing asked message signals) :
    Covers (asked ++ [message]) signals := (Releasing.begin h).covers

end Losses

/-! ## A receiver that answers

The receiver says `taken` only while it holds the token, and `freed` only while it
does not. The answers keep their order, too. -/

inductive Answer where
  | taken
  | freed
  deriving DecidableEq, Repr

/-- The answer that a receiver may give behind the signals. -/
def admits (signals : List (Signal M)) : Answer → Bool
  | .taken => holds false signals
  | .freed => !holds false signals

/-- All that was asked for is handed on, and the token is free. -/
structure Idle (asked : List M) (read wire : List (Signal M)) (answers : List Answer) : Prop where
  handed : handsOn false read = asked
  free : holds false read = false
  wire : Releases wire
  answers : .taken ∉ answers

/-- The message is published: it is on its way, or the receiver has it. -/
inductive Offered (before : List M) (message : M) (read wire : List (Signal M))
    (answers : List Answer) : Prop where
  | waiting (handed : handsOn false read = before) (free : holds false read = false)
      (hwire : ∃ old own, wire = old ++ own ∧ Releases old ∧ Publishes message own)
      (hanswers : .taken ∉ answers)
  | held (handed : handsOn false read = before ++ [message]) (held : holds false read = true)
      (hwire : Publishes message wire)
      (hanswers : ∃ old own, answers = old ++ own ∧ .taken ∉ old ∧ .freed ∉ own)

/-- The token is released: the receiver has the message, and holds the token or not. -/
inductive Freed (before : List M) (message : M) (read wire : List (Signal M))
    (answers : List Answer) : Prop where
  | held (handed : handsOn false read = before ++ [message]) (held : holds false read = true)
      (hwire : ∃ old own, wire = old ++ own ∧ Publishes message old ∧ Releases own)
      (hanswers : .freed ∉ answers)
  | free (handed : handsOn false read = before ++ [message]) (free : holds false read = false)
      (hwire : Releases wire)
      (hanswers : ∃ old own, answers = old ++ own ∧ .freed ∉ old ∧ .taken ∉ own)

theorem Freed.handed {before : List M} {message : M} {read wire : List (Signal M)}
    {answers : List Answer} (h : Freed before message read wire answers) :
    handsOn false read = before ++ [message] := by
  cases h with
  | held handed => exact handed
  | free handed => exact handed

/-- The sender knows that the receiver has the message. -/
def KnowsTaken (read : List (Signal M)) (answers : List Answer) : Prop :=
  holds false read = true ∧ .freed ∉ answers

/-- The sender knows that the token is free. -/
def KnowsFreed (read : List (Signal M)) (answers : List Answer) : Prop :=
  holds false read = false ∧ .taken ∉ answers

section Answers

variable {asked before : List M} {message : M} {read wire wire' : List (Signal M)}
  {answers answers' : List Answer} {signal : Signal M} {answer : Answer}

theorem holds_snoc (read : List (Signal M)) (signal : Signal M) :
    holds false (read ++ [signal]) = holds (holds false read) [signal] := holds_append _ _ _

theorem handsOn_snoc (read : List (Signal M)) (signal : Signal M) :
    handsOn false (read ++ [signal]) = handsOn false read ++ handsOn (holds false read) [signal] :=
  handsOn_append _ _ _

/-- The front of what is left of two parts lies in the second when it is not in the first. -/
theorem sublist_of_cons {first second : List (Signal M)}
    (hsub : (signal :: wire').Sublist (first ++ second)) (hnot : signal ∉ first) :
    (signal :: wire').Sublist second := by
  obtain ⟨left, right, hsplit, hleft, hright⟩ := List.sublist_append_iff.mp hsub
  cases left with
  | nil =>
    rw [List.nil_append] at hsplit
    exact hsplit ▸ hright
  | cons head rest =>
    rw [List.cons_append, List.cons.injEq] at hsplit
    exact absurd (hleft.subset (hsplit.1 ▸ List.mem_cons_self)) hnot

/-! ### Losses -/

theorem Idle.less (h : Idle asked read wire answers) (hwire : wire'.Sublist wire)
    (hanswers : answers' <:+ answers) : Idle asked read wire' answers' :=
  ⟨h.handed, h.free, h.wire.sublist hwire, fun hmem => h.answers (hanswers.subset hmem)⟩

theorem suffix_parts {first second : Answer} {old own : List Answer}
    (h : answers' <:+ old ++ own) (hold : first ∉ old) (hown : second ∉ own) :
    ∃ old own, answers' = old ++ own ∧ first ∉ old ∧ second ∉ own := by
  rcases List.suffix_or_suffix_of_suffix h (List.suffix_append old own) with hshort | ⟨part, rfl⟩
  · exact ⟨[], answers', rfl, List.not_mem_nil, fun hmem => hown (hshort.subset hmem)⟩
  · obtain ⟨front, hfront⟩ := h
    rw [← List.append_assoc] at hfront
    obtain rfl := List.append_cancel_right hfront
    exact ⟨part, own, rfl, fun hmem => hold (List.mem_append_right _ hmem), hown⟩

theorem Offered.less (h : Offered before message read wire answers)
    (hwire : wire'.Sublist wire) (hanswers : answers' <:+ answers) :
    Offered before message read wire' answers' := by
  cases h with
  | waiting handed free hparts hnone =>
    obtain ⟨old, own, rfl, hold, hown⟩ := hparts
    obtain ⟨old', own', rfl, hold', hown'⟩ := List.sublist_append_iff.mp hwire
    exact .waiting handed free ⟨old', own', rfl, hold.sublist hold', hown.sublist hown'⟩
      (fun hmem => hnone (hanswers.subset hmem))
  | held handed held hpublishes hparts =>
    obtain ⟨old, own, rfl, hold, hown⟩ := hparts
    exact .held handed held (hpublishes.sublist hwire) (suffix_parts hanswers hold hown)

theorem Freed.less (h : Freed before message read wire answers)
    (hwire : wire'.Sublist wire) (hanswers : answers' <:+ answers) :
    Freed before message read wire' answers' := by
  cases h with
  | held handed held hparts hnone =>
    obtain ⟨old, own, rfl, hold, hown⟩ := hparts
    obtain ⟨old', own', rfl, hold', hown'⟩ := List.sublist_append_iff.mp hwire
    exact .held handed held ⟨old', own', rfl, hold.sublist hold', hown.sublist hown'⟩
      (fun hmem => hnone (hanswers.subset hmem))
  | free handed free hreleases hparts =>
    obtain ⟨old, own, rfl, hold, hown⟩ := hparts
    exact .free handed free (hreleases.sublist hwire) (suffix_parts hanswers hold hown)

/-! ### The receiver reads a signal -/

theorem Idle.reads (h : Idle asked read wire answers)
    (hfront : (signal :: wire').Sublist wire) : Idle asked (read ++ [signal]) wire' answers := by
  obtain rfl := h.wire signal (hfront.subset List.mem_cons_self)
  refine ⟨?_, ?_, h.wire.sublist ((List.sublist_cons_self _ _).trans hfront), h.answers⟩
  · rw [handsOn_snoc, h.handed]
    exact List.append_nil _
  · rw [holds_snoc]
    rfl

theorem Offered.reads (h : Offered before message read wire answers)
    (hfront : (signal :: wire').Sublist wire) :
    Offered before message (read ++ [signal]) wire' answers := by
  have behind := (List.sublist_cons_self signal wire').trans hfront
  cases h with
  | waiting handed free hparts hnone =>
    obtain ⟨old, own, rfl, hold, hown⟩ := hparts
    cases signal with
    | publish other =>
      have hlast := sublist_of_cons hfront (fun hmem => by cases hold _ hmem)
      obtain hsame := hown _ (hlast.subset List.mem_cons_self)
      cases hsame
      refine .held ?_ ?_ (hown.sublist ((List.sublist_cons_self _ _).trans hlast))
        ⟨answers, [], (List.append_nil _).symm, hnone, List.not_mem_nil⟩
      · rw [handsOn_snoc, handed, free]
        rfl
      · rw [holds_snoc]
        rfl
    | release =>
      obtain ⟨old', own', rfl, hold', hown'⟩ := List.sublist_append_iff.mp behind
      refine .waiting ?_ ?_ ⟨old', own', rfl, hold.sublist hold', hown.sublist hown'⟩ hnone
      · rw [handsOn_snoc, handed]
        exact List.append_nil _
      · rw [holds_snoc]
        rfl
  | held handed held hpublishes hparts =>
    obtain rfl := hpublishes signal (hfront.subset List.mem_cons_self)
    refine .held ?_ ?_ (hpublishes.sublist behind) hparts
    · rw [handsOn_snoc, handed, held]
      exact List.append_nil _
    · rw [holds_snoc]
      rfl

theorem Freed.reads (h : Freed before message read wire answers)
    (hfront : (signal :: wire').Sublist wire) :
    Freed before message (read ++ [signal]) wire' answers := by
  have behind := (List.sublist_cons_self signal wire').trans hfront
  cases h with
  | held handed held hparts hnone =>
    obtain ⟨old, own, rfl, hold, hown⟩ := hparts
    cases signal with
    | publish other =>
      obtain ⟨old', own', rfl, hold', hown'⟩ := List.sublist_append_iff.mp behind
      refine .held ?_ ?_ ⟨old', own', rfl, hold.sublist hold', hown.sublist hown'⟩ hnone
      · rw [handsOn_snoc, handed, held]
        exact List.append_nil _
      · rw [holds_snoc]
        rfl
    | release =>
      have hlast := sublist_of_cons hfront (fun hmem => by cases hold _ hmem)
      refine .free ?_ ?_ (hown.sublist ((List.sublist_cons_self _ _).trans hlast))
        ⟨answers, [], (List.append_nil _).symm, hnone, List.not_mem_nil⟩
      · rw [handsOn_snoc, handed]
        exact List.append_nil _
      · rw [holds_snoc]
        rfl
  | free handed free hreleases hparts =>
    obtain rfl := hreleases signal (hfront.subset List.mem_cons_self)
    refine .free ?_ ?_ (hreleases.sublist behind) hparts
    · rw [handsOn_snoc, handed]
      exact List.append_nil _
    · rw [holds_snoc]
      rfl

/-! ### The sender writes a signal -/

theorem Offered.writes (h : Offered before message read wire answers) :
    Offered before message read (wire ++ [.publish message]) answers := by
  cases h with
  | waiting handed free hparts hnone =>
    obtain ⟨old, own, rfl, hold, hown⟩ := hparts
    exact .waiting handed free ⟨old, own ++ [.publish message], List.append_assoc _ _ _, hold,
      hown.snoc⟩ hnone
  | held handed held hpublishes hparts => exact .held handed held hpublishes.snoc hparts

theorem Freed.writes (h : Freed before message read wire answers) :
    Freed before message read (wire ++ [.release]) answers := by
  cases h with
  | held handed held hparts hnone =>
    obtain ⟨old, own, rfl, hold, hown⟩ := hparts
    exact .held handed held ⟨old, own ++ [.release], List.append_assoc _ _ _, hold, hown.snoc⟩
      hnone
  | free handed free hreleases hparts => exact .free handed free hreleases.snoc hparts

/-! ### The receiver answers -/

theorem mem_snoc {other : Answer} (hmem : other ∈ answers ++ [answer]) (hne : other ≠ answer) :
    other ∈ answers := by
  rcases List.mem_append.mp hmem with hold | hnew
  · exact hold
  · exact absurd (List.mem_singleton.mp hnew) hne

theorem Idle.answered (h : Idle asked read wire answers) (hadmits : admits read answer = true) :
    Idle asked read wire (answers ++ [answer]) := by
  refine ⟨h.handed, h.free, h.wire, fun hmem => ?_⟩
  cases answer with
  | taken =>
    rw [admits, h.free] at hadmits
    cases hadmits
  | freed => exact h.answers (mem_snoc hmem (by simp))

theorem Offered.answered (h : Offered before message read wire answers)
    (hadmits : admits read answer = true) :
    Offered before message read wire (answers ++ [answer]) := by
  cases h with
  | waiting handed free hparts hnone =>
    refine .waiting handed free hparts fun hmem => ?_
    cases answer with
    | taken =>
      rw [admits, free] at hadmits
      cases hadmits
    | freed => exact hnone (mem_snoc hmem (by simp))
  | held handed held hpublishes hparts =>
    obtain ⟨old, own, rfl, hold, hown⟩ := hparts
    refine .held handed held hpublishes
      ⟨old, own ++ [answer], List.append_assoc _ _ _, hold, fun hmem => ?_⟩
    cases answer with
    | taken => exact hown (mem_snoc hmem (by simp))
    | freed =>
      rw [admits, held] at hadmits
      cases hadmits

theorem Freed.answered (h : Freed before message read wire answers)
    (hadmits : admits read answer = true) :
    Freed before message read wire (answers ++ [answer]) := by
  cases h with
  | held handed held hparts hnone =>
    refine .held handed held hparts fun hmem => ?_
    cases answer with
    | taken => exact hnone (mem_snoc hmem (by simp))
    | freed =>
      rw [admits, held] at hadmits
      cases hadmits
  | free handed free hreleases hparts =>
    obtain ⟨old, own, rfl, hold, hown⟩ := hparts
    refine .free handed free hreleases
      ⟨old, own ++ [answer], List.append_assoc _ _ _, hold, fun hmem => ?_⟩
    cases answer with
    | taken =>
      rw [admits, free] at hadmits
      cases hadmits
    | freed => exact hown (mem_snoc hmem (by simp))

/-! ### What the sender learns -/

theorem Offered.learns (h : Offered before message read wire (.taken :: answers)) :
    KnowsTaken read answers := by
  cases h with
  | waiting handed free hparts hnone => exact absurd List.mem_cons_self hnone
  | held handed held hpublishes hparts =>
    obtain ⟨old, own, hsplit, hold, hown⟩ := hparts
    cases old with
    | nil =>
      rw [List.nil_append] at hsplit
      exact ⟨held, fun hmem => hown (hsplit ▸ List.mem_cons_of_mem _ hmem)⟩
    | cons head rest =>
      rw [List.cons_append, List.cons.injEq] at hsplit
      exact absurd (hsplit.1 ▸ List.mem_cons_self) hold

theorem Freed.learns (h : Freed before message read wire (.freed :: answers)) :
    KnowsFreed read answers := by
  cases h with
  | held handed held hparts hnone => exact absurd List.mem_cons_self hnone
  | free handed free hreleases hparts =>
    obtain ⟨old, own, hsplit, hold, hown⟩ := hparts
    cases old with
    | nil =>
      rw [List.nil_append] at hsplit
      exact ⟨free, fun hmem => hown (hsplit ▸ List.mem_cons_of_mem _ hmem)⟩
    | cons head rest =>
      rw [List.cons_append, List.cons.injEq] at hsplit
      exact absurd (hsplit.1 ▸ List.mem_cons_self) hold

theorem KnowsTaken.less (h : KnowsTaken read answers) (hanswers : answers' <:+ answers) :
    KnowsTaken read answers' := ⟨h.1, fun hmem => h.2 (hanswers.subset hmem)⟩

theorem KnowsFreed.less (h : KnowsFreed read answers) (hanswers : answers' <:+ answers) :
    KnowsFreed read answers' := ⟨h.1, fun hmem => h.2 (hanswers.subset hmem)⟩

theorem KnowsTaken.answered (h : KnowsTaken read answers) (hadmits : admits read answer = true) :
    KnowsTaken read (answers ++ [answer]) := by
  refine ⟨h.1, fun hmem => ?_⟩
  cases answer with
  | taken => exact h.2 (mem_snoc hmem (by simp))
  | freed =>
    rw [admits, h.1] at hadmits
    cases hadmits

theorem KnowsFreed.answered (h : KnowsFreed read answers) (hadmits : admits read answer = true) :
    KnowsFreed read (answers ++ [answer]) := by
  refine ⟨h.1, fun hmem => ?_⟩
  cases answer with
  | taken =>
    rw [admits, h.1] at hadmits
    cases hadmits
  | freed => exact h.2 (mem_snoc hmem (by simp))

/-- A receiver that is known to have the message keeps its token while it is published. -/
theorem KnowsTaken.reads (h : Offered before message read wire answers)
    (hfront : (signal :: wire').Sublist wire) (hknows : KnowsTaken read answers) :
    KnowsTaken (read ++ [signal]) answers := by
  cases h with
  | waiting handed free hparts hnone =>
    rw [hknows.1] at free
    cases free
  | held handed held hpublishes hparts =>
    obtain rfl := hpublishes signal (hfront.subset List.mem_cons_self)
    exact ⟨by rw [holds_snoc]; rfl, hknows.2⟩

theorem KnowsFreed.reads (h : Freed before message read wire answers)
    (hfront : (signal :: wire').Sublist wire) (hknows : KnowsFreed read answers) :
    KnowsFreed (read ++ [signal]) answers := by
  cases h with
  | held handed held hparts hnone =>
    rw [hknows.1] at held
    cases held
  | free handed free hreleases hparts =>
    obtain rfl := hreleases signal (hfront.subset List.mem_cons_self)
    exact ⟨by rw [holds_snoc]; rfl, hknows.2⟩

/-! ### From one phase to the next -/

theorem Idle.offer (h : Idle asked read wire answers) (message : M) :
    Offered asked message read wire answers :=
  .waiting h.handed h.free
    ⟨wire, [], (List.append_nil _).symm, h.wire, fun _ hmem => absurd hmem List.not_mem_nil⟩
    h.answers

theorem Offered.release (h : Offered before message read wire answers)
    (hknows : KnowsTaken read answers) : Freed before message read wire answers := by
  cases h with
  | waiting handed free hparts hnone =>
    rw [hknows.1] at free
    cases free
  | held handed held hpublishes hparts =>
    exact .held handed held
      ⟨wire, [], (List.append_nil _).symm, hpublishes, fun _ hmem => absurd hmem List.not_mem_nil⟩
      hknows.2

theorem Freed.rest (h : Freed before message read wire answers)
    (hknows : KnowsFreed read answers) : Idle (before ++ [message]) read wire answers := by
  cases h with
  | held handed held hparts hnone =>
    rw [hknows.1] at held
    cases held
  | free handed free hreleases hparts => exact ⟨handed, free, hreleases, hknows.2⟩

end Answers

end TwoPhase
