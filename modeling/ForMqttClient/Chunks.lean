import ForMqttClient.PacketLoop

/-!
# Chunks in the connected phase

The packet loop takes exactly the frames off the buffer that are complete. So
what a stream of decodable frames makes the task dispatch does not depend on
the chunks in which the stream arrives.
-/

namespace NetworkTask

open MqttData Codec ByteReader

/-- The chunks come in one after the other, and behind each the loop runs. -/
def receive (version : Protocol) (buf : Bytes) :
    List Bytes → Except Fault (List Event × Bytes)
  | [] => .ok ([], buf)
  | chunk :: chunks => do
    let (events, buf) ← dealConnectedNetworkPacket version (buf ++ chunk)
    let (later, buf) ← receive version buf chunks
    return (events ++ later, buf)

section Loop

variable {version : Protocol}

/-- The buffer ends before the first of the frames does. -/
def Partial (buf : Bytes) (frames : List (Bytes × Codec.Packet)) : Prop :=
  ∀ frame ∈ frames.head?, buf.length < frame.1.length

/-! ## The loop on a part of the stream -/

/-- What the loop has done on the front of a stream of frames. -/
structure Dealt (version : Protocol) (frames : List (Bytes × Codec.Packet)) (rest : Bytes)
    (result : Except Fault (List Event × Bytes)) : Prop where
  split : ∃ done todo buf, frames = done ++ todo ∧ result = .ok (eventsOf done, buf) ∧
    buf ++ rest = bytesOf todo ∧ Partial buf todo

theorem dealLoop_dealt {frames : List (Bytes × Codec.Packet)} :
    ∀ {buf rest : Bytes} {fuel : Nat}, Decodable version frames →
      buf ++ rest = bytesOf frames → buf.length < fuel →
      Dealt version frames rest (dealLoop version fuel buf) := by
  induction frames with
  | nil =>
    intro buf rest fuel _ whole enough
    obtain ⟨rfl, rfl⟩ := List.append_eq_nil_iff.mp whole
    obtain ⟨fuel, rfl⟩ := Nat.exists_eq_succ_of_ne_zero (Nat.ne_of_gt enough)
    have nothing : dealLoop version (fuel + 1) [] = .ok ([], []) := rfl
    exact ⟨[], [], [], rfl, nothing, rfl, by simp [Partial]⟩
  | cons frame frames ih =>
    intro buf rest fuel decodable whole enough
    obtain ⟨fuel, rfl⟩ := Nat.exists_eq_succ_of_ne_zero (Nat.ne_of_gt (Nat.zero_lt_of_lt enough))
    have decodes := decodable frame List.mem_cons_self
    have later : Decodable version frames := fun f h => decodable f (List.mem_cons_of_mem _ h)
    rw [bytesOf_cons] at whole
    rcases within_or_behind whole with ⟨short, back, part, parts⟩ | ⟨behind, parts, after⟩
    · obtain ⟨header, isFrame, _⟩ := decodes.isFrame
      rw [parts] at isFrame
      have waits := isFrame.front_waits part version
      exact ⟨[], frame :: frames, buf, rfl, dealLoop_waits waits fuel, whole,
        by simpa [Partial] using short⟩
    · -- The buffer holds the first frame; the loop goes on behind it.
      rw [parts, dealLoop_frame decodes]
      by_cases more : behind.length ≥ 2
      · have shorter : behind.length < fuel := by
          have two := decodes.two_le
          rw [parts, List.length_append] at enough
          omega
        obtain ⟨done, todo, left, split, result, remains, partly⟩ :=
          (ih later after shorter).split
        rw [if_pos more, result]
        refine ⟨frame :: done, todo, left, ?_, ?_, remains, partly⟩
        · rw [split, List.cons_append]
        · rw [eventsOf_cons]
          rfl
      · rw [if_neg more]
        refine ⟨[frame], frames, behind, rfl, ?_, after, ?_⟩
        · rw [eventsOf_cons]
          simp [eventsOf]
        · intro next first
          have two := (later next (List.mem_of_head? first)).two_le
          omega

end Loop

/-! ## All chunks -/

theorem receive_frames {version : Protocol} {chunks : List Bytes} :
    ∀ {frames : List (Bytes × Codec.Packet)} {buf : Bytes}, Decodable version frames →
      buf ++ chunks.flatten = bytesOf frames → Partial buf frames →
      receive version buf chunks = .ok (eventsOf frames, []) := by
  induction chunks with
  | nil =>
    intro frames buf _ whole partly
    rw [List.flatten_nil, List.append_nil] at whole
    cases frames with
    | nil =>
      rw [whole]
      rfl
    | cons frame frames =>
      have short := partly frame rfl
      rw [whole] at short
      simp only [bytesOf, List.flatMap_cons, List.length_append] at short
      omega
  | cons chunk chunks ih =>
    intro frames buf decodable whole _
    rw [List.flatten_cons, ← List.append_assoc] at whole
    obtain ⟨done, todo, left, rfl, result, remains, partly⟩ :=
      (dealLoop_dealt decodable whole (Nat.lt_succ_self _)).split
    have rest := ih (fun f h => decodable f (List.mem_append_right _ h)) remains partly
    have events : eventsOf (done ++ todo) = eventsOf done ++ eventsOf todo :=
      List.filterMap_append
    rw [receive, dealConnectedNetworkPacket, result, events]
    simp only [bind, Except.bind, rest]
    rfl

/-- However a stream of decodable frames is cut into chunks, the loop dispatches
the events of the frames and leaves nothing in the buffer. -/
theorem chunks_do_not_matter (version : Protocol) (frames : List (Bytes × Codec.Packet))
    (decodable : Decodable version frames) (chunks : List Bytes)
    (split : chunks.flatten = bytesOf frames) :
    receive version [] chunks = .ok (eventsOf frames, []) := by
  refine receive_frames decodable split ?_
  intro frame first
  have two := (decodable frame (List.mem_of_head? first)).two_le
  rw [List.length_nil]
  omega

theorem chunks_do_not_matter_to_two_frames :
    receive .V4 [] [[0xD0], [0x00, 0x40, 0x02], [0x00], [0x01]] =
      .ok ([.PingResp, .PubAck (.V4 1)], []) := by
  refine chunks_do_not_matter .V4
    [([0xD0, 0x00], .PingResp), ([0x40, 0x02, 0x00, 0x01], .PubAck (.V4 1))] ?_ _ rfl
  intro frame listed
  simp only [List.mem_cons, List.not_mem_nil, or_false] at listed
  rcases listed with rfl | rfl <;> rfl

end NetworkTask
