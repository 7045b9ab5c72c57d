import Mathlib.Data.List.Basic
import Mathlib.Data.List.Perm.Subperm

/-!
# A queue that is first-in first-out per channel

Messages in flight stand in one list, oldest first. Each belongs to the
channel that `key` names. A message may be taken when no older message of
its own channel is in the list; messages of different channels may overtake
one another. Nothing here names a program.
-/

namespace PairFifo

universe u v
variable {μ : Type u} {κ : Type v} [DecidableEq κ] (key : μ → κ)

/-- The messages of one channel, oldest first. -/
def channel (k : κ) (queue : List μ) : List μ :=
  queue.filter (fun m => key m = k)

/-- Take the message at position `j`, if it is the oldest of its channel. -/
def take (queue : List μ) (j : Nat) : Option (μ × List μ) :=
  match queue[j]? with
  | none => none
  | some m =>
    if (queue.take j).all (fun m' => decide (key m' ≠ key m)) then
      some (m, queue.eraseIdx j)
    else none

variable {key} {queue rest : List μ} {j : Nat} {m : μ}

theorem take_split (h : take key queue j = some (m, rest)) :
    ∃ older newer, queue = older ++ m :: newer ∧ rest = older ++ newer ∧
      ∀ m' ∈ older, key m' ≠ key m := by
  unfold take at h
  split at h
  · cases h
  · next m' hm' =>
    split at h
    · next hall =>
      obtain ⟨rfl, rfl⟩ := Prod.mk.inj (Option.some.inj h)
      obtain ⟨hj, hget⟩ := List.getElem?_eq_some_iff.mp hm'
      refine ⟨queue.take j, queue.drop (j + 1), ?_, List.eraseIdx_eq_take_drop_succ .., ?_⟩
      · rw [← hget, List.getElem_cons_drop, List.take_append_drop]
      · intro x hx
        exact of_decide_eq_true (List.all_eq_true.mp hall x hx)
    · cases h

theorem mem_of_take (h : take key queue j = some (m, rest)) : m ∈ queue := by
  obtain ⟨older, newer, rfl, _, _⟩ := take_split h
  simp

theorem perm_of_take (h : take key queue j = some (m, rest)) :
    queue.Perm (m :: rest) := by
  obtain ⟨older, newer, rfl, rfl, _⟩ := take_split h
  exact List.perm_middle

theorem mem_rest_of_take (h : take key queue j = some (m, rest)) {x : μ}
    (hx : x ∈ rest) : x ∈ queue :=
  (perm_of_take h).mem_iff.mpr (List.mem_cons_of_mem _ hx)

theorem mem_or_eq_of_take (h : take key queue j = some (m, rest)) {x : μ}
    (hx : x ∈ queue) : x = m ∨ x ∈ rest :=
  List.mem_cons.mp ((perm_of_take h).mem_iff.mp hx)

/-- The taken message was the head of its channel. -/
theorem channel_take (h : take key queue j = some (m, rest)) :
    channel key (key m) queue = m :: channel key (key m) rest := by
  obtain ⟨older, newer, rfl, rfl, hold⟩ := take_split h
  have empty : older.filter (fun m' => key m' = key m) = [] :=
    List.filter_eq_nil_iff.mpr (fun m' hm' => by simpa using hold m' hm')
  simp [channel, List.filter_append, empty]

/-- Every other channel is left as it was. -/
theorem channel_take_of_ne (h : take key queue j = some (m, rest)) {k : κ}
    (hk : key m ≠ k) : channel key k queue = channel key k rest := by
  obtain ⟨older, newer, rfl, rfl, _⟩ := take_split h
  simp [channel, List.filter_append, hk]

@[simp] theorem channel_append (k : κ) (queue new : List μ) :
    channel key k (queue ++ new) = channel key k queue ++ channel key k new :=
  List.filter_append ..

/-- What is put on other channels does not show on this one. -/
theorem channel_append_of_ne {k : κ} (queue : List μ) {new : List μ}
    (hnew : ∀ m ∈ new, key m ≠ k) : channel key k (queue ++ new) = channel key k queue := by
  have nothing : channel key k new = [] := by
    rw [channel, List.filter_eq_nil_iff]
    intro m hm
    simpa using hnew m hm
  rw [channel_append, nothing, List.append_nil]

theorem mem_channel {k : κ} : m ∈ channel key k queue ↔ m ∈ queue ∧ key m = k := by
  simp [channel]

/-- A channel that is not empty has a message that may be taken. -/
theorem exists_take (hm : m ∈ queue) :
    ∃ j m' rest, take key queue j = some (m', rest) ∧ key m' = key m := by
  have found : ∃ m' ∈ queue, decide (key m' = key m) = true := ⟨m, hm, decide_eq_true rfl⟩
  obtain ⟨j, hfind⟩ := Option.isSome_iff_exists.mp (List.findIdx?_isSome.trans
    (List.any_eq_true.mpr found))
  obtain ⟨hj, hkey, holder⟩ := List.findIdx?_eq_some_iff_getElem.mp hfind
  have hkey' : key queue[j] = key m := of_decide_eq_true hkey
  have first : (queue.take j).all (fun m' => decide (key m' ≠ key queue[j])) = true := by
    rw [List.all_eq_true]
    intro m' hmem
    obtain ⟨i, hi, rfl⟩ := List.getElem_of_mem hmem
    have hij : i < j := Nat.lt_of_lt_of_le hi (List.length_take_le j queue)
    have hne := holder i hij
    simp only [List.getElem_take, hkey', decide_eq_true_eq]
    simpa using hne
  refine ⟨j, queue[j], queue.eraseIdx j, ?_, hkey'⟩
  rw [take, List.getElem?_eq_getElem hj]
  simp only [first, if_true]

/-- The newest message may be taken when its channel is empty before it. -/
theorem take_snoc (h : ∀ m' ∈ queue, key m' ≠ key m) :
    take key (queue ++ [m]) queue.length = some (m, queue) := by
  have found : (queue ++ [m])[queue.length]? = some m := by simp
  have older : ((queue ++ [m]).take queue.length).all (fun m' => decide (key m' ≠ key m)) = true := by
    rw [List.take_left, List.all_eq_true]
    exact fun m' hm' => decide_eq_true (h m' hm')
  have rest : (queue ++ [m]).eraseIdx queue.length = queue := by
    rw [List.eraseIdx_append_of_length_le (Nat.le_refl _)]
    simp
  rw [take, found]
  simp only [older, rest, if_true]

/-! ## Ranks along a channel -/

section Ranks

variable {rank rank' : μ → Option Nat} {high high' low : Nat}

/-- Every message has a rank, and the ranks rise from `low` to `high`. -/
def Rising (rank : μ → Option Nat) (high : Nat) : Nat → List μ → Prop
  | low, [] => low ≤ high
  | low, m :: rest => ∃ r, rank m = some r ∧ low ≤ r ∧ Rising rank high r rest

theorem Rising.mono (h : Rising rank high low queue)
    (hrank : ∀ m r, rank m = some r → rank' m = some r) (hhigh : high ≤ high') :
    Rising rank' high' low queue := by
  induction queue generalizing low with
  | nil => exact Nat.le_trans h hhigh
  | cons m rest ih =>
    obtain ⟨r, hr, hle, htail⟩ := h
    exact ⟨r, hrank m r hr, hle, ih htail⟩

theorem Rising.lower (h : Rising rank high low queue) {low' : Nat} (hlow : low' ≤ low) :
    Rising rank high low' queue := by
  cases queue with
  | nil => exact Nat.le_trans hlow h
  | cons m rest =>
    obtain ⟨r, hr, hle, htail⟩ := h
    exact ⟨r, hr, Nat.le_trans hlow hle, htail⟩

theorem Rising.snoc (h : Rising rank high low queue) (hm : rank m = some high) :
    Rising rank high low (queue ++ [m]) := by
  induction queue generalizing low with
  | nil => exact ⟨high, hm, h, Nat.le_refl high⟩
  | cons first rest ih =>
    obtain ⟨r, hr, hle, htail⟩ := h
    exact ⟨r, hr, hle, ih htail⟩

theorem Rising.of_suffix (h : Rising rank high low queue) (hsuffix : rest <:+ queue) :
    Rising rank high low rest := by
  obtain ⟨older, rfl⟩ := hsuffix
  induction older with
  | nil => exact h
  | cons first older ih =>
    obtain ⟨r, _, hle, htail⟩ := h
    exact ih (htail.lower hle)

end Ranks

/-! ## Several flows in one list -/

section Flows

variable {α : Type} {flow flow' : List (Nat × α)}

/-- What belongs to connection `n` in a flow of several connections. -/
def part (n : Nat) (flow : List (Nat × α)) : List α :=
  flow.filterMap (fun item => if item.1 = n then some item.2 else none)

theorem count_part [DecidableEq α] (n : Nat) (a : α) (flow : List (Nat × α)) :
    (part n flow).count a = flow.count (n, a) := by
  induction flow with
  | nil => rfl
  | cons item rest ih =>
    obtain ⟨m, b⟩ := item
    rw [part, List.filterMap_cons]
    by_cases hmn : m = n
    · subst hmn
      rw [if_pos rfl, List.count_cons, List.count_cons, ← part, ih]
      simp
    · rw [if_neg hmn, ← part, ih, List.count_cons]
      simp [hmn]

/-- Flows compare as their connections do. -/
theorem count_le_of_parts [DecidableEq α] (h : ∀ n, (part n flow).Sublist (part n flow')) (a : α) :
    (flow.map Prod.snd).count a ≤ (flow'.map Prod.snd).count a := by
  have below : flow.Subperm flow' := by
    rw [List.subperm_ext_iff]
    rintro ⟨n, b⟩ _
    rw [← count_part, ← count_part]
    exact (h n).count_le b
  obtain ⟨between, perm, sublist⟩ := below
  rw [← (perm.map Prod.snd).count_eq a]
  exact (sublist.map Prod.snd).count_le a

end Flows

end PairFifo
