import Mathlib.Data.List.Basic

/-!
# Items taken off a stream

A decoder takes one item off the front of a stream of symbols, or waits until
the stream holds a whole one. What it has taken stays the same whatever comes
behind it. Then it makes no difference into which chunks the stream is cut, and
what an encoder has put one behind the other comes out again.
-/

namespace Framing

variable {α β : Type}

/-! ## Taking one after the other -/

/-- At most `fuel` items, and what is left of the stream. -/
def drain (next : List β → Option (α × List β)) : Nat → List β → List α × List β
  | 0, stream => ([], stream)
  | fuel + 1, stream =>
    match next stream with
    | none => ([], stream)
    | some (item, rest) =>
      let (later, left) := drain next fuel rest
      (item :: later, left)

/-- An item takes a symbol at least, so there are never more items than symbols. -/
def takeAll (next : List β → Option (α × List β)) (stream : List β) : List α × List β :=
  drain next stream.length stream

/-- The chunks come in one after the other, and behind each all items are taken. -/
def receive (next : List β → Option (α × List β)) (buf : List β) :
    List (List β) → List α × List β
  | [] => ([], buf)
  | chunk :: chunks =>
    let (items, buf) := takeAll next (buf ++ chunk)
    let (later, buf) := receive next buf chunks
    (items ++ later, buf)

/-- An item is not empty, and what comes behind it has no part in it. -/
structure Stable (next : List β → Option (α × List β)) : Prop where
  shorter : ∀ {stream item rest}, next stream = some (item, rest) → rest.length < stream.length
  append : ∀ {stream item rest}, next stream = some (item, rest) →
    ∀ more, next (stream ++ more) = some (item, rest ++ more)

section Decoder

variable {next : List β → Option (α × List β)}

theorem drain_none {stream : List β} (waits : next stream = none) (fuel : Nat) :
    drain next fuel stream = ([], stream) := by
  cases fuel with
  | zero => rfl
  | succ fuel => rw [drain, waits]

theorem drain_some {stream rest : List β} {item : α} (taken : next stream = some (item, rest))
    (fuel : Nat) :
    drain next (fuel + 1) stream = (item :: (drain next fuel rest).1, (drain next fuel rest).2) := by
  rw [drain, taken]

theorem takeAll_none {stream : List β} (waits : next stream = none) :
    takeAll next stream = ([], stream) := drain_none waits _

theorem receive_cons (buf chunk : List β) (chunks : List (List β)) :
    receive next buf (chunk :: chunks) =
      ((takeAll next (buf ++ chunk)).1 ++ (receive next (takeAll next (buf ++ chunk)).2 chunks).1,
        (receive next (takeAll next (buf ++ chunk)).2 chunks).2) := rfl

variable (stable : Stable next)
include stable

/-- More fuel than symbols changes nothing. -/
theorem drain_enough : ∀ {fuel : Nat} {stream : List β}, stream.length ≤ fuel →
    drain next fuel stream = takeAll next stream := by
  intro fuel
  induction fuel using Nat.strongRecOn with
  | ind fuel ih =>
    intro stream enough
    cases taken : next stream with
    | none => rw [takeAll, drain_none taken, drain_none taken]
    | some result =>
      obtain ⟨item, rest⟩ := result
      have short := stable.shorter taken
      obtain ⟨fuel, rfl⟩ := Nat.exists_eq_succ_of_ne_zero (show fuel ≠ 0 by omega)
      obtain ⟨len, hlen⟩ := Nat.exists_eq_succ_of_ne_zero (show stream.length ≠ 0 by omega)
      rw [takeAll, hlen, drain_some taken, drain_some taken, ih fuel (by omega) (by omega),
        ih len (by omega) (by omega)]

theorem takeAll_some {stream rest : List β} {item : α} (taken : next stream = some (item, rest)) :
    takeAll next stream = (item :: (takeAll next rest).1, (takeAll next rest).2) := by
  have short := stable.shorter taken
  obtain ⟨len, hlen⟩ := Nat.exists_eq_succ_of_ne_zero (show stream.length ≠ 0 by omega)
  rw [takeAll, hlen, drain_some taken, drain_enough stable (by omega)]

/-- A rule for all items of a stream, by the first of them. -/
theorem takeAll_induct {P : List β → Prop} (waits : ∀ stream, next stream = none → P stream)
    (takes : ∀ stream item rest, next stream = some (item, rest) → P rest → P stream)
    (stream : List β) : P stream := by
  induction size : stream.length using Nat.strongRecOn generalizing stream with
  | ind n ih =>
    cases taken : next stream with
    | none => exact waits stream taken
    | some result =>
      obtain ⟨item, rest⟩ := result
      exact takes stream item rest taken (ih rest.length (size ▸ stable.shorter taken) rest rfl)

/-- Nothing more can be taken off what is left. -/
theorem next_left (stream : List β) : next (takeAll next stream).2 = none := by
  induction stream using takeAll_induct stable with
  | waits stream waits =>
    rw [takeAll_none waits]
    exact waits
  | takes stream item rest taken ih =>
    rw [takeAll_some stable taken]
    exact ih

/-- What comes later is taken behind what has been taken. -/
theorem takeAll_append (stream more : List β) :
    takeAll next (stream ++ more) =
      ((takeAll next stream).1 ++ (takeAll next ((takeAll next stream).2 ++ more)).1,
        (takeAll next ((takeAll next stream).2 ++ more)).2) := by
  induction stream using takeAll_induct stable with
  | waits stream waits =>
    rw [takeAll_none waits]
    rfl
  | takes stream item rest taken ih =>
    rw [takeAll_some stable taken, takeAll_some stable (stable.append taken more), ih]
    rfl

/-! ## Chunks and encodings -/

/-- However the stream is cut, the items are those of the whole stream. -/
theorem receive_eq {buf : List β} (waits : next buf = none) (chunks : List (List β)) :
    receive next buf chunks = takeAll next (buf ++ chunks.flatten) := by
  induction chunks generalizing buf with
  | nil =>
    rw [List.flatten_nil, List.append_nil, takeAll_none waits]
    rfl
  | cons chunk chunks ih =>
    rw [List.flatten_cons, ← List.append_assoc, takeAll_append stable (buf ++ chunk),
      receive_cons, ih (next_left stable (buf ++ chunk))]

/-- Encoded items are taken off the stream again, each as what it was. -/
theorem takeAll_flatMap {ι : Type} {encode : ι → List β} {result : ι → α} {items : List ι}
    (reads : ∀ item ∈ items, ∀ more, next (encode item ++ more) = some (result item, more))
    (tail : List β) :
    takeAll next (items.flatMap encode ++ tail) =
      (items.map result ++ (takeAll next tail).1, (takeAll next tail).2) := by
  induction items with
  | nil => rfl
  | cons item items ih =>
    have first := reads item List.mem_cons_self (items.flatMap encode ++ tail)
    have others := ih fun other member => reads other (List.mem_cons_of_mem _ member)
    rw [List.flatMap_cons, List.append_assoc, takeAll_some stable first, others]
    rfl

end Decoder

end Framing
