import ForMqttClient.SubscribeWriters
import Mathlib.Data.Stream.Init

/-!
# Sending until it is acknowledged

`complete_to_tx_packet` sends a packet and waits for an acknowledgement with its
identifier; whenever the time is over it sends the packet again. What it waits for
comes as one sequence of acknowledgements and timeouts. A computation that waits at
the end of its inputs is pending there, so that an infinite sequence is met by the
runs on its beginnings.
-/

namespace Transmission

open MqttData Codec

/-! ## The traits -/

/-- The packets that are sent again; `dupData` may change the packet. -/
class PacketDup (T : Type) where
  data : T → Bytes
  dupData : T → T × Bytes

instance : PacketDup Publish where
  data packet := (Publish.write packet []).1
  dupData packet :=
    let packet := { packet with dup := true }
    (packet, (Publish.write packet []).1)

/-- PUBREL and PUBREC; a packet that was read cannot be written. -/
instance {Reason : Type} [Common Reason] :
    PacketDup { packet : PubCommon Reason // (packet.write []).isSome } where
  data packet := ((packet.val.write []).get packet.property).1
  dupData packet := (packet, ((packet.val.write []).get packet.property).1)

instance : PacketDup Subscribe where
  data packet := (Subscribe.write packet []).1
  dupData packet := (packet, (Subscribe.write packet []).1)

instance : PacketDup Unsubscribe where
  data packet := (Unsubscribe.write packet []).1
  dupData packet := (packet, (Unsubscribe.write packet []).1)

class PacketRel (Ack : Type) where
  isRel : Ack → PacketId → Bool

/-- PUBACK, PUBREC, PUBREL and PUBCOMP. -/
instance {Reason : Type} : PacketRel (PubCommon Reason) where
  isRel ack packetId := ack.packetId == packetId

instance : PacketRel SubAck where
  isRel
    | .V4 id _, packetId => id == packetId
    | .V5ReadMode id _ _, packetId => id == packetId

instance : PacketRel UnsubAck where
  isRel
    | .V4 id, packetId => id == packetId
    | .V5ReadMode id _ _, packetId => id == packetId

/-! ## The loops -/

inductive Input (Ack : Type) where
  | ack (msg : Ack)
  | timeout
  deriving DecidableEq, Repr

/-- How the wait of one period ends, with the inputs that are left. -/
inductive Wait (Ack : Type) where
  | received (msg : Ack) (left : List (Input Ack))
  | elapsed (left : List (Input Ack))
  | pending
  deriving DecidableEq, Repr

variable {Ack T : Type} [PacketRel Ack] [PacketDup T]

/-- `timeout_rx` under `timeout`, which cancels its loop. -/
def timeoutRx (packetId : PacketId) : List (Input Ack) → Wait Ack
  | [] => .pending
  | .timeout :: rest => .elapsed rest
  | .ack msg :: rest =>
    if PacketRel.isRel msg packetId then .received msg rest else timeoutRx packetId rest

theorem timeoutRx_shortens {packetId : PacketId} {inputs left : List (Input Ack)}
    (elapsed : timeoutRx packetId inputs = .elapsed left) : left.length < inputs.length := by
  induction inputs with
  | nil => cases elapsed
  | cons input inputs ih =>
    cases input with
    | timeout =>
      cases elapsed
      exact Nat.lt_succ_self _
    | ack msg =>
      rw [timeoutRx] at elapsed
      split at elapsed
      · cases elapsed
      · exact Nat.lt_succ_of_lt (ih elapsed)

/-- What was sent, the acknowledgement if the call has returned, and the inputs that it
has not taken. -/
structure Transmitted (Ack : Type) where
  sent : List Bytes
  returned : Option Ack
  left : List (Input Ack)
  deriving DecidableEq, Repr

/-- The bytes to send again are made once and kept. -/
def resend (packet : T) : Option Bytes → T × Bytes
  | some data => (packet, data)
  | none => PacketDup.dupData packet

/-- The loop behind the first send. -/
def retransmitLoop (packetId : PacketId) (packet : T) (dupData : Option Bytes)
    (inputs : List (Input Ack)) : Transmitted Ack :=
  match waited : timeoutRx packetId inputs with
  | .received msg left => { sent := [], returned := some msg, left := left }
  | .pending => { sent := [], returned := none, left := [] }
  | .elapsed left =>
    have := timeoutRx_shortens waited
    let (packet, data) := resend packet dupData
    let later := retransmitLoop packetId packet (some data) left
    { later with sent := data :: later.sent }
termination_by inputs.length

def completeToTxPacket (packetId : PacketId) (packet : T) (inputs : List (Input Ack)) :
    Transmitted Ack :=
  let data := PacketDup.data packet
  let later := retransmitLoop packetId packet none inputs
  { later with sent := data :: later.sent }

/-! ## What the loops do -/

/-- The acknowledgement that an input brings to the call. -/
def Input.rel (packetId : PacketId) : Input Ack → Option Ack
  | .ack msg => if PacketRel.isRel msg packetId then some msg else none
  | .timeout => none

def Input.isTimeout : Input Ack → Bool
  | .timeout => true
  | .ack _ => false

/-- The inputs in front of the first one that acknowledges the packet. -/
def waiting (packetId : PacketId) (inputs : List (Input Ack)) : List (Input Ack) :=
  inputs.takeWhile fun input => (input.rel packetId).isNone

section Loop

variable {packetId : PacketId} {packet : T} {dupData : Option Bytes} {inputs : List (Input Ack)}

theorem retransmitLoop_eq : retransmitLoop packetId packet dupData inputs =
    match timeoutRx packetId inputs with
    | .received msg left => { sent := [], returned := some msg, left := left }
    | .pending => { sent := [], returned := none, left := [] }
    | .elapsed left =>
      let again := resend packet dupData
      let later := retransmitLoop packetId again.1 (some again.2) left
      { later with sent := again.2 :: later.sent } := by
  rw [retransmitLoop]
  split <;> rename_i waited <;> simp only [waited]

theorem loop_of_rel {input : Input Ack} {msg : Ack} (rel : input.rel packetId = some msg) :
    retransmitLoop packetId packet dupData (input :: inputs) =
      { sent := [], returned := some msg, left := inputs } := by
  cases input with
  | timeout => cases rel
  | ack msg' =>
    rw [Input.rel] at rel
    split at rel
    · cases rel
      rw [retransmitLoop_eq, timeoutRx, if_pos ‹_›]
    · cases rel

/-- A foreign acknowledgement leaves the call where it is. -/
theorem loop_of_foreign {msg : Ack} (foreign : (Input.ack msg).rel packetId = none) :
    retransmitLoop packetId packet dupData (.ack msg :: inputs) =
      retransmitLoop packetId packet dupData inputs := by
  rw [Input.rel] at foreign
  split at foreign
  · cases foreign
  · rw [retransmitLoop_eq, timeoutRx, if_neg ‹_›, ← retransmitLoop_eq]

theorem loop_of_timeout : retransmitLoop packetId packet dupData (.timeout :: inputs) =
    let again := resend packet dupData
    let later := retransmitLoop packetId again.1 (some again.2) inputs
    { later with sent := again.2 :: later.sent } := by
  rw [retransmitLoop_eq]
  rfl

theorem waiting_of_rel {input : Input Ack} {msg : Ack} (rel : input.rel packetId = some msg) :
    waiting packetId (input :: inputs) = [] := by
  rw [waiting, List.takeWhile_cons_of_neg]
  rw [rel]
  exact Bool.false_ne_true

theorem waiting_of_none {input : Input Ack} (foreign : input.rel packetId = none) :
    waiting packetId (input :: inputs) = input :: waiting packetId inputs := by
  rw [waiting, List.takeWhile_cons_of_pos]
  · rfl
  · rw [foreign]
    rfl

theorem retransmitLoop_spec (inputs : List (Input Ack)) : ∀ (packet : T) (dupData : Option Bytes),
    retransmitLoop packetId packet dupData inputs =
      { sent := List.replicate ((waiting packetId inputs).countP Input.isTimeout)
          (resend packet dupData).2
        returned := (inputs.filterMap (Input.rel packetId)).head?
        left := inputs.drop ((waiting packetId inputs).length + 1) } := by
  induction inputs with
  | nil =>
    intro packet dupData
    rw [retransmitLoop_eq]
    rfl
  | cons input inputs ih =>
    intro packet dupData
    cases rel : input.rel packetId with
    | some msg =>
      rw [loop_of_rel rel, waiting_of_rel rel, List.filterMap_cons_some rel]
      rfl
    | none =>
      rw [waiting_of_none rel, List.filterMap_cons_none rel, List.length_cons, List.drop_succ_cons]
      cases input with
      | ack msg =>
        rw [loop_of_foreign rel, ih, List.countP_cons_of_neg Bool.false_ne_true]
      | timeout =>
        -- from the first timeout on the bytes are kept
        simp only [loop_of_timeout, ih]
        rw [List.countP_cons_of_pos rfl, List.replicate_succ]
        rfl

end Loop

/-! ## Endless inputs -/

section Endless

variable {packetId : PacketId} {inputs : Stream' (Input Ack)} {k : Nat}

theorem rel_of_mem_take (foreign : ∀ j, j < k → (inputs.get j).rel packetId = none) :
    ∀ input ∈ inputs.take k, input.rel packetId = none := by
  intro input member
  obtain ⟨j, inside, rfl⟩ := List.mem_iff_getElem.mp member
  have early : j < k := by
    rw [Stream'.length_take] at inside
    exact inside
  have found := Stream'.getElem?_take (s := inputs) early
  rw [List.getElem?_eq_getElem inside] at found
  rw [Option.some.inj found]
  exact foreign j early

theorem waiting_append {early : List (Input Ack)} (none : ∀ input ∈ early, input.rel packetId = none)
    (later : List (Input Ack)) :
    waiting packetId (early ++ later) = early ++ waiting packetId later := by
  refine List.takeWhile_append_of_pos fun input member => ?_
  rw [none input member]
  rfl

theorem filterMap_append_of_none {early : List (Input Ack)}
    (none : ∀ input ∈ early, input.rel packetId = none) (later : List (Input Ack)) :
    (early ++ later).filterMap (Input.rel packetId) = later.filterMap (Input.rel packetId) := by
  rw [List.filterMap_append, List.filterMap_eq_nil_iff.mpr none, List.nil_append]

omit [PacketRel Ack] in
/-- The inputs up to one that lies before the end. -/
theorem take_parts {n : Nat} (inside : k < n) :
    ∃ later, inputs.take n = inputs.take k ++ inputs.get k :: later := by
  have size : k < (inputs.take n).length := by
    rw [Stream'.length_take]
    exact inside
  have found := Stream'.getElem?_take (s := inputs) inside
  rw [List.getElem?_eq_getElem size] at found
  have front : (inputs.take n).take k = inputs.take k := by
    rw [Stream'.take_take, Nat.min_eq_right (Nat.le_of_lt inside)]
  refine ⟨(inputs.take n).drop (k + 1), ?_⟩
  rw [← Option.some.inj found, ← front, ← List.drop_eq_getElem_cons size, List.take_append_drop]

end Endless

/-- One send, then one retransmission a timeout until the first acknowledgement with the
identifier, which is what the call returns; of endless inputs this holds from the moment
at which it has come in. -/
theorem transmits_until_acknowledged (packetId : PacketId) (packet : T) :
    (∀ inputs : List (Input Ack), completeToTxPacket packetId packet inputs =
      { sent := PacketDup.data packet ::
          List.replicate ((waiting packetId inputs).countP Input.isTimeout)
            (PacketDup.dupData packet).2
        returned := (inputs.filterMap (Input.rel packetId)).head?
        left := inputs.drop ((waiting packetId inputs).length + 1) }) ∧
    ∀ inputs : Stream' (Input Ack),
      (∀ k msg, (inputs.get k).rel packetId = some msg →
        (∀ j, j < k → (inputs.get j).rel packetId = none) → ∀ n, k < n →
          (completeToTxPacket packetId packet (inputs.take n)).sent =
            PacketDup.data packet ::
              List.replicate ((inputs.take k).countP Input.isTimeout) (PacketDup.dupData packet).2 ∧
          (completeToTxPacket packetId packet (inputs.take n)).returned = some msg) ∧
      ((∀ j, (inputs.get j).rel packetId = none) → ∀ n,
        (completeToTxPacket packetId packet (inputs.take n)).sent =
          PacketDup.data packet ::
            List.replicate ((inputs.take n).countP Input.isTimeout) (PacketDup.dupData packet).2 ∧
        (completeToTxPacket packetId packet (inputs.take n)).returned = none) := by
  have finite : ∀ inputs : List (Input Ack), completeToTxPacket packetId packet inputs =
      { sent := PacketDup.data packet ::
          List.replicate ((waiting packetId inputs).countP Input.isTimeout)
            (PacketDup.dupData packet).2
        returned := (inputs.filterMap (Input.rel packetId)).head?
        left := inputs.drop ((waiting packetId inputs).length + 1) } := by
    intro inputs
    simp only [completeToTxPacket, retransmitLoop_spec]
    rfl
  refine ⟨finite, fun inputs => ⟨?_, ?_⟩⟩
  · intro k msg rel earlier n inside
    have none := rel_of_mem_take earlier
    obtain ⟨later, parts⟩ := take_parts inside
    rw [finite, parts, waiting_append none, filterMap_append_of_none none, waiting_of_rel rel,
      List.append_nil, List.filterMap_cons_some rel]
    exact ⟨rfl, rfl⟩
  · intro never n
    have none : ∀ input ∈ inputs.take n, input.rel packetId = Option.none :=
      rel_of_mem_take fun j _ => never j
    have all := waiting_append none []
    have nothing := filterMap_append_of_none none []
    rw [List.append_nil] at all nothing
    rw [finite, all, nothing]
    exact ⟨by rw [waiting, List.takeWhile_nil, List.append_nil], rfl⟩

/-- An acknowledgement of another packet, a timeout, the one that is waited for, and then
nothing but timeouts. -/
def lateAck : Stream' (Input (PubCommon PubAckReason))
  | 0 => .ack (.V4 3)
  | 1 => .timeout
  | 2 => .ack (.V4 7)
  | _ => .timeout

/-- The second time the DUP flag is set. -/
theorem transmits_twice_for_late_ack :
    (completeToTxPacket 7 (Publish.new "" (.AtLeastOnce 7) [1] false .V4) (lateAck.take 5)).sent =
        [[0x32, 5, 0, 0, 0, 7, 1], [0x3A, 5, 0, 0, 0, 7, 1]] ∧
      (completeToTxPacket 7 (Publish.new "" (.AtLeastOnce 7) [1] false .V4)
        (lateAck.take 5)).returned = some (.V4 7) := by
  have earlier : ∀ j, j < 2 → (lateAck.get j).rel 7 = none := by
    intro j before
    match j, before with
    | 0, _ | 1, _ => rfl
  have run := (transmits_until_acknowledged 7
    (Publish.new "" (.AtLeastOnce 7) [1] false .V4)).2 lateAck
  obtain ⟨sent, returned⟩ := run.1 2 (.V4 7) rfl earlier 5 (by decide)
  refine ⟨?_, returned⟩
  rw [sent]
  decide +kernel

end Transmission
