import ForMqttClient.FieldRoundTrips
import ForMqttClient.Frames

/-!
# PUBLISH read back

The length that the writer of a PUBLISH computes is the length of what it writes.
The reader takes the packet off these bytes again, if there are few enough
subscription identifiers: for each of them its cursor counts one byte too many,
so that the loop over the properties may end before the last one.
-/

namespace Codec

open MqttData ByteReader

namespace PublishProperties

/-! ## The encoded properties -/

/-- An identifier as the writer puts it. -/
def putIdentifier (buffer : Bytes) (id : Nat) : Bytes := buffer ++ encodedLength id

/-- The properties in front of the subscription identifiers. -/
def front (q : PublishProperties) : Bytes :=
  someBytes .PayloadFormatIndicator putU8 q.payloadFormatIndicator ++
  someBytes .MessageExpiryInterval putU32 q.messageExpiryInterval ++
  someBytes .TopicAlias putU16 q.topicAlias ++
  someBytes .ResponseTopic writeMqttString q.responseTopic ++
  someBytes .CorrelationData writeMqttBytes q.correlationData ++
  q.userProperties.flatMap (propertyBytes .UserProperty writeUserProperty)

def identifiers (ids : List Nat) : Bytes :=
  ids.flatMap (propertyBytes .SubscriptionIdentifier putIdentifier)

/-- All properties, without the length in front of them. -/
def encoded (q : PublishProperties) : Bytes :=
  front q ++ (identifiers q.subscriptionIdentifiers ++
    someBytes .ContentType writeMqttString q.contentType)

theorem putIdentifier_eq (buffer : Bytes) (id : Nat) :
    putIdentifier buffer id = buffer ++ putIdentifier [] id := rfl

theorem write_eq (q : PublishProperties) (buffer : Bytes) :
    write q buffer = buffer ++ (encodedLength (len q) ++ encoded q) := by
  simp only [write, writeRemainingLength_eq, putSome_eq putU8_eq, putSome_eq putU16_eq,
    putSome_eq putU32_eq, putSome_eq writeMqttString_eq, putSome_eq writeMqttBytes_eq,
    foldl_putProperty_eq writeUserProperty_eq]
  change List.foldl (putProperty .SubscriptionIdentifier putIdentifier) _ _ ++ _ = _
  rw [foldl_putProperty_eq putIdentifier_eq]
  simp only [encoded, front, identifiers, List.append_assoc]

/-! ## Lengths -/

theorem identifiers_length {ids : List Nat} (small : ∀ id ∈ ids, id ≤ maxLength) :
    (identifiers ids).length = (ids.map fun id => 1 + lenLen id).sum := by
  rw [identifiers, List.length_flatMap]
  congr 1
  refine List.map_congr_left fun id member => ?_
  have size : (putIdentifier [] id).length = lenLen id := encodedLength_length (small id member)
  rw [propertyBytes, List.length_cons, size, Nat.add_comm]

/-- `len` is the length of what is written. -/
theorem encoded_length {q : PublishProperties}
    (small : ∀ id ∈ q.subscriptionIdentifiers, id ≤ maxLength) :
    (encoded q).length = len q := by
  simp only [encoded, front, len, List.length_append, identifiers_length small,
    userProperties_length, someBytes_length octet_size, someBytes_length word_size,
    someBytes_length longword_size, someBytes_length string_size, someBytes_length bytes_size]
  omega

/-! ## The property loop -/

/-- What the length fields have room for. -/
structure Encodable (q : PublishProperties) : Prop where
  response_topic : ∀ topic, q.responseTopic = some topic → Fits (asBytes topic)
  correlation_data : ∀ data, q.correlationData = some data → Fits data
  user_properties : ∀ pair ∈ q.userProperties, Fits (asBytes pair.1) ∧ Fits (asBytes pair.2)
  subscription_identifiers : ∀ id ∈ q.subscriptionIdentifiers, id ≤ maxLength
  content_type : ∀ typ, q.contentType = some typ → Fits (asBytes typ)

/-- What the loop has read in front of the identifiers. -/
def beforeIdentifiers (q : PublishProperties) : PublishProperties :=
  { q with subscriptionIdentifiers := [], contentType := none }

/-- One field of the front after another. -/
theorem front_counts {q : PublishProperties} (encodable : Encodable q) {bound : Nat}
    (small : bound ≤ maxLength) :
    Counts (propertyTurn turn) bound empty (front q) (beforeIdentifiers q) := by
  let upTo1 := { empty with payloadFormatIndicator := q.payloadFormatIndicator }
  let upTo2 := { upTo1 with messageExpiryInterval := q.messageExpiryInterval }
  let upTo3 := { upTo2 with topicAlias := q.topicAlias }
  let upTo4 := { upTo3 with responseTopic := q.responseTopic }
  let upTo5 := { upTo4 with correlationData := q.correlationData }
  have first : Counts (propertyTurn turn) bound empty
      (someBytes .PayloadFormatIndicator putU8 q.payloadFormatIndicator) upTo1 := by
    refine counts_field (fun value => { empty with payloadFormatIndicator := value }) small ?_
    intro v _ cursor inside
    exact lookup_reads (takeU8_takes _ v cursor inside)
  have second : Counts (propertyTurn turn) bound upTo1
      (someBytes .MessageExpiryInterval putU32 q.messageExpiryInterval) upTo2 := by
    refine counts_field (fun value => { upTo1 with messageExpiryInterval := value }) small ?_
    intro v _ cursor inside
    exact lookup_reads (takeU32_takes _ v cursor inside)
  have third : Counts (propertyTurn turn) bound upTo2
      (someBytes .TopicAlias putU16 q.topicAlias) upTo3 := by
    refine counts_field (fun value => { upTo2 with topicAlias := value }) small ?_
    intro v _ cursor inside
    exact lookup_reads (takeU16_takes _ v cursor inside)
  have fourth : Counts (propertyTurn turn) bound upTo3
      (someBytes .ResponseTopic writeMqttString q.responseTopic) upTo4 := by
    refine counts_field (fun value => { upTo3 with responseTopic := value }) small ?_
    intro topic value cursor inside
    have fits := encodable.response_topic topic value
    exact lookup_reads (takeString_takes _ fits cursor inside)
  have fifth : Counts (propertyTurn turn) bound upTo4
      (someBytes .CorrelationData writeMqttBytes q.correlationData) upTo5 := by
    refine counts_field (fun value => { upTo4 with correlationData := value }) small ?_
    intro data value cursor inside
    have fits := encodable.correlation_data data value
    exact lookup_reads (takeBytes_takes _ fits cursor inside)
  have sixth : Counts (propertyTurn turn) bound upTo5
      (q.userProperties.flatMap (propertyBytes .UserProperty writeUserProperty))
      (beforeIdentifiers q) := by
    refine counts_repeated (fun pairs => { upTo5 with userProperties := pairs }) small [] ?_
    intro before pair member cursor inside
    have fits := encodable.user_properties pair member
    exact lookup_reads (takeUserProperty_takes _ fits.1 fits.2 cursor inside)
  exact ((((first.trans second).trans third).trans fourth).trans fifth).trans sixth

/-! ## Subscription identifiers -/

theorem takeSubscriptionIdentifier_reads {id : Nat} (small : id ≤ maxLength)
    (p : PublishProperties) {cursor : Nat} (inside : cursor ≤ maxLength + 1) :
    Reads (takeSubscriptionIdentifier p cursor) (encodedLength id)
      ({ p with subscriptionIdentifiers := p.subscriptionIdentifiers ++ [id] },
        cursor + (1 + lenLen id)) := by
  have width := lenLen_le id
  simp only [maxLength] at inside
  refine peekLength_reads small List.prefix_rfl ?_
  refine (add_reads (by simp only [usizeBits]; omega)).bind_nil ?_
  refine (add_reads (by simp only [usizeBits]; omega)).bind_nil ?_
  exact (advance_reads small).map fun _ => _

/-- How far the identifiers move the cursor. -/
def walked (ids : List Nat) : Nat := (identifiers ids).length + ids.length

theorem walked_cons (id : Nat) (ids : List Nat) :
    walked (id :: ids) = walked [id] + walked ids := by
  simp only [walked, identifiers, List.flatMap_cons, List.flatMap_nil, List.append_nil,
    List.length_append, List.length_cons, List.length_nil]
  omega

/-- The turn of an identifier moves the cursor by one more than it takes. -/
theorem identifier_reads {id : Nat} (small : id ≤ maxLength) (p : PublishProperties)
    {cursor : Nat} (inside : cursor ≤ maxLength) :
    Reads (propertyTurn turn p cursor)
      (propertyBytes .SubscriptionIdentifier putIdentifier id)
      ({ p with subscriptionIdentifiers := p.subscriptionIdentifiers ++ [id] },
        cursor + walked [id]) := by
  have size : cursor + walked [id] = cursor + 1 + (1 + lenLen id) := by
    have width : (putIdentifier [] id).length = lenLen id := encodedLength_length small
    simp only [walked, identifiers, List.flatMap_cons, List.flatMap_nil, List.append_nil,
      propertyBytes, List.length_cons, List.length_nil, width]
    omega
  have taken := takeSubscriptionIdentifier_reads small p (Nat.succ_le_succ inside)
  have sum : cursor + 1 < 2 ^ usizeBits := by
    simp only [maxLength, usizeBits] at *
    omega
  rw [size]
  exact (readU8_reads _).bind ((add_reads sum).bind_nil (lookup_reads taken))

/-- The loop takes identifiers until its cursor has reached the bound. -/
theorem identifiers_advance {bound : Nat} (room : bound ≤ maxLength) {ids : List Nat}
    (small : ∀ id ∈ ids, id ≤ maxLength) :
    ∀ (p : PublishProperties) cursor, ∃ taken left, ids = taken ++ left ∧
      Advances (propertyTurn turn) bound (p, cursor) (identifiers taken)
        ({ p with subscriptionIdentifiers := p.subscriptionIdentifiers ++ taken },
          cursor + walked taken) ∧
      (left ≠ [] → bound ≤ cursor + walked taken) ∧
      ∀ init last, taken = init ++ [last] → cursor + walked init < bound := by
  induction ids with
  | nil =>
    intro p cursor
    refine ⟨[], [], rfl, ?_, fun some => absurd rfl some, ?_⟩
    · rw [List.append_nil]
      exact .refl _
    · intro init last none
      exact absurd none.symm (by simp)
  | cons id ids ih =>
    intro p cursor
    by_cases reached : bound ≤ cursor
    · refine ⟨[], id :: ids, rfl, ?_, fun _ => reached, ?_⟩
      · rw [List.append_nil]
        exact .refl _
      · intro init last none
        exact absurd none.symm (by simp)
    have below := Nat.not_le.mp reached
    have inside : cursor ≤ maxLength := Nat.le_of_lt (Nat.lt_of_lt_of_le below room)
    have step := identifier_reads (small id List.mem_cons_self) p inside
    have first : Advances (propertyTurn turn) bound (p, cursor) _ _ :=
      .of_turn below (List.cons_ne_nil _ _) step
    obtain ⟨taken, left, parts, later, stopped, kept⟩ :=
      ih (fun id member => small id (List.mem_cons_of_mem _ member))
        { p with subscriptionIdentifiers := p.subscriptionIdentifiers ++ [id] }
        (cursor + walked [id])
    have far : cursor + walked [id] + walked taken = cursor + walked (id :: taken) := by
      rw [walked_cons id taken, Nat.add_assoc]
    refine ⟨id :: taken, left, by rw [parts]; rfl, ?_, ?_, ?_⟩
    · rw [far, List.append_assoc] at later
      exact first.trans later
    · rw [far] at stopped
      exact stopped
    · intro init last ends
      cases init with
      | nil => exact below
      | cons head init =>
        injection ends with same rest
        subst same
        rw [walked_cons id init, ← Nat.add_assoc]
        exact kept init last rest

theorem identifiers_append (first second : List Nat) :
    identifiers (first ++ second) = identifiers first ++ identifiers second := List.flatMap_append

theorem identifiers_one {id : Nat} (small : id ≤ maxLength) :
    (identifiers [id]).length = 1 + lenLen id := by
  have all : ∀ other ∈ [id], other ≤ maxLength := by simpa using small
  simpa using identifiers_length all

theorem length_le_identifiers (ids : List Nat) : ids.length ≤ (identifiers ids).length := by
  induction ids with
  | nil => exact Nat.le_refl _
  | cons id ids ih =>
    simp only [identifiers, List.flatMap_cons, List.length_append, propertyBytes,
      List.length_cons] at ih ⊢
    omega

/-! ## When the properties are read back -/

/-- The cursor, one ahead for each identifier, is still below the length at the
last property. -/
def IdentifiersFit (q : PublishProperties) : Prop :=
  match q.contentType with
  | some typ => q.subscriptionIdentifiers.length ≤ 2 + strLen typ
  | none => ∀ last ∈ q.subscriptionIdentifiers.getLast?,
      q.subscriptionIdentifiers.length ≤ 1 + lenLen last

theorem contentType_length (typ : String) :
    (someBytes .ContentType writeMqttString (some typ)).length = 3 + strLen typ := by
  rw [someBytes, propertyBytes, List.length_cons, writeMqttString_length]
  omega

theorem len_parts {q : PublishProperties} (encodable : Encodable q) :
    len q = (front q).length + (identifiers q.subscriptionIdentifiers).length +
      (someBytes .ContentType writeMqttString q.contentType).length := by
  rw [← encoded_length encodable.subscription_identifiers, encoded, List.length_append,
    List.length_append, Nat.add_assoc]

/-- The loop ended with identifiers left. -/
theorem stopped_unfit {q : PublishProperties} (encodable : Encodable q) {taken left : List Nat}
    (parts : q.subscriptionIdentifiers = taken ++ left) (some : left ≠ [])
    (reached : len q ≤ (front q).length + walked taken) : ¬IdentifiersFit q := by
  have size := len_parts encodable
  rw [parts, identifiers_append, List.length_append] at size
  rw [walked] at reached
  unfold IdentifiersFit
  cases content : q.contentType with
  | some typ =>
    rw [content, contentType_length] at size
    have rest := length_le_identifiers left
    simp only [parts, List.length_append]
    omega
  | none =>
    intro fit
    have ends := List.dropLast_concat_getLast some
    have last : q.subscriptionIdentifiers.getLast? = left.getLast some := by
      rw [parts, List.getLast?_append, List.getLast?_eq_some_getLast some, Option.some_or]
    have small : left.getLast some ≤ maxLength := by
      refine encodable.subscription_identifiers _ ?_
      rw [parts]
      exact List.mem_append_right _ (List.getLast_mem some)
    have few := fit _ last
    have initial := length_le_identifiers left.dropLast
    have whole := congrArg (fun ids => (identifiers ids).length) ends
    have count := congrArg List.length ends
    simp only [identifiers_append, List.length_append, identifiers_one small, List.length_cons,
      List.length_nil] at whole count
    rw [parts, List.length_append] at few
    rw [content, someBytes, List.length_nil] at size
    omega

/-- No property follows the identifiers, and the loop has taken them all. -/
theorem all_taken_fit {q : PublishProperties} (encodable : Encodable q)
    (content : q.contentType = none)
    (kept : ∀ init last, q.subscriptionIdentifiers = init ++ [last] →
      (front q).length + walked init < len q) : IdentifiersFit q := by
  unfold IdentifiersFit
  rw [content]
  intro last ends
  obtain ⟨init, parts⟩ := List.getLast?_eq_some_iff.mp ends
  have below := kept init last parts
  have small : last ≤ maxLength :=
    encodable.subscription_identifiers last (List.mem_of_getLast? ends)
  have size := len_parts encodable
  rw [content, someBytes, List.length_nil, parts, identifiers_append, List.length_append,
    identifiers_one small] at size
  rw [walked] at below
  rw [parts, List.length_append, List.length_cons, List.length_nil]
  omega

/-- The loop goes on to the content type. -/
theorem below_iff_fit {q : PublishProperties} (encodable : Encodable q) {typ : String}
    (content : q.contentType = some typ) :
    (front q).length + walked q.subscriptionIdentifiers < len q ↔ IdentifiersFit q := by
  have size := len_parts encodable
  rw [content, contentType_length] at size
  unfold IdentifiersFit
  rw [content, walked]
  constructor
  · intro below
    change _ ≤ _
    omega
  · intro fit
    have few : q.subscriptionIdentifiers.length ≤ 2 + strLen typ := fit
    omega

theorem contentType_takes {typ : String} (fits : Fits (asBytes typ)) (p : PublishProperties) :
    Takes (turn PropertyType.ContentType.toU8 p) (writeMqttString [] typ)
      { p with contentType := some typ } :=
  fun cursor inside => lookup_reads (takeString_takes _ fits cursor inside)

/-- The loop over what was written ends, and its result is what was written where
the identifiers fit. -/
def LoopReads (q : PublishProperties) (rest : Bytes) : Prop :=
  ∃ q' rest', whileBelow (propertyTurn turn) (len q) empty 0 (encoded q ++ rest) =
      .ok (q', rest') ∧
    (q' = q ↔ IdentifiersFit q) ∧ (IdentifiersFit q → rest' = rest)

theorem loop_stopped {q : PublishProperties} (encodable : Encodable q) {taken left : List Nat}
    (parts : q.subscriptionIdentifiers = taken ++ left) (some : left ≠ [])
    (walk : Advances (propertyTurn turn) (len q) (empty, 0) (front q ++ identifiers taken)
      ({ q with subscriptionIdentifiers := taken, contentType := none },
        (front q).length + walked taken))
    (reached : len q ≤ (front q).length + walked taken) (rest : Bytes) : LoopReads q rest := by
  have split : encoded q ++ rest = front q ++ identifiers taken ++
      (identifiers left ++ someBytes .ContentType writeMqttString q.contentType ++ rest) := by
    rw [encoded, parts, identifiers_append]
    simp only [List.append_assoc]
  have unfit := stopped_unfit encodable parts some reached
  rw [LoopReads, split, walk.whileBelow reached]
  refine ⟨_, _, rfl, iff_of_false ?_ unfit, fun fit => absurd fit unfit⟩
  intro same
  have ids := congrArg PublishProperties.subscriptionIdentifiers same
  rw [parts] at ids
  exact some (by simpa using ids)

section AllTaken

variable {q : PublishProperties} {typ : String}
variable (walk : Advances (propertyTurn turn) (len q) (empty, 0)
  (front q ++ identifiers q.subscriptionIdentifiers)
  ({ q with contentType := none }, (front q).length + walked q.subscriptionIdentifiers))
include walk

theorem loop_without_contentType (encodable : Encodable q) (content : q.contentType = none)
    (kept : ∀ init last, q.subscriptionIdentifiers = init ++ [last] →
      (front q).length + walked init < len q) (rest : Bytes) : LoopReads q rest := by
  have size := len_parts encodable
  rw [content, someBytes, List.length_nil] at size
  rw [LoopReads, encoded, content, someBytes, List.append_nil,
    walk.whileBelow (by rw [size, walked]; omega)]
  refine ⟨_, _, rfl, iff_of_true ?_ (all_taken_fit encodable content kept), fun _ => rfl⟩
  rw [← content]

theorem loop_to_contentType (encodable : Encodable q) (content : q.contentType = some typ)
    (room : len q ≤ maxLength)
    (below : (front q).length + walked q.subscriptionIdentifiers < len q) (rest : Bytes) :
    LoopReads q rest := by
  have size := len_parts encodable
  rw [content, someBytes] at size
  have takes := contentType_takes (encodable.content_type typ content)
    { q with contentType := none }
  have inside := Nat.le_of_lt (Nat.lt_of_lt_of_le below room)
  have last : Advances (propertyTurn turn) (len q) ({ q with contentType := none },
      (front q).length + walked q.subscriptionIdentifiers)
      (propertyBytes .ContentType writeMqttString typ) _ :=
    .of_turn below (List.cons_ne_nil _ _) (propertyTurn_takes takes inside)
  have fit := (below_iff_fit encodable content).mp below
  rw [LoopReads, encoded, content, someBytes, ← List.append_assoc,
    (walk.trans last).whileBelow (by rw [size, walked]; omega)]
  refine ⟨_, _, rfl, iff_of_true ?_ fit, fun _ => rfl⟩
  rw [← content]

theorem loop_before_contentType (encodable : Encodable q) (content : q.contentType = some typ)
    (reached : len q ≤ (front q).length + walked q.subscriptionIdentifiers) (rest : Bytes) :
    LoopReads q rest := by
  have unfit : ¬IdentifiersFit q := fun fit =>
    absurd ((below_iff_fit encodable content).mpr fit) (Nat.not_lt.mpr reached)
  rw [LoopReads, encoded, ← List.append_assoc, List.append_assoc _ _ rest,
    walk.whileBelow reached]
  refine ⟨_, _, rfl, iff_of_false ?_ unfit, fun fit => absurd fit unfit⟩
  intro same
  have missing := congrArg PublishProperties.contentType same
  rw [content] at missing
  cases missing

end AllTaken

theorem loop_written {q : PublishProperties} (encodable : Encodable q)
    (room : len q ≤ maxLength) (rest : Bytes) : LoopReads q rest := by
  have size := len_parts encodable
  have start := front_counts encodable room 0 (by omega)
  rw [Nat.zero_add] at start
  obtain ⟨taken, left, parts, identifiersWalk, stopped, kept⟩ :=
    identifiers_advance room encodable.subscription_identifiers (beforeIdentifiers q)
      (front q).length
  have walk := start.trans identifiersWalk
  by_cases all : left = []
  · subst all
    rw [List.append_nil] at parts
    subst parts
    cases content : q.contentType with
    | none => exact loop_without_contentType walk encodable content kept rest
    | some typ =>
      by_cases below : (front q).length + walked q.subscriptionIdentifiers < len q
      · exact loop_to_contentType walk encodable content room below rest
      · exact loop_before_contentType walk encodable content (Nat.not_lt.mp below) rest
  · exact loop_stopped encodable parts all walk (stopped all) rest

theorem len_pos {q : PublishProperties} (some : q ≠ empty) : len q ≠ 0 := by
  intro zero
  simp only [len, Nat.add_eq_zero_iff] at zero
  obtain ⟨⟨⟨⟨⟨⟨⟨indicator, expiry⟩, number⟩, topic⟩, data⟩, pairs⟩, ids⟩, content⟩ := zero
  refine some ?_
  cases q
  simp only at indicator expiry number topic data pairs ids content
  rw [someLen_eq_zero (by simp) indicator, someLen_eq_zero (by simp) expiry,
    someLen_eq_zero (by simp) number, someLen_eq_zero (by omega) topic,
    someLen_eq_zero (by omega) data, someLen_eq_zero (by omega) content,
    sum_map_eq_zero userPropertyLen_pos pairs, sum_map_eq_zero (by omega) ids]
  rfl

end PublishProperties

namespace Publish

/-! ## The encoded packet -/

def packetIdBytes (qos : QoSWithPacketId) : Bytes :=
  match qos.packetId with
  | some pkid => putU16 [] (.ofNat pkid)
  | none => []

def propertiesBytes (p : Publish) : Bytes := writeProperties p []

/-- What follows the fixed header. -/
def body (p : Publish) : Bytes :=
  writeMqttString [] p.topic ++ (packetIdBytes p.qos ++ (propertiesBytes p ++ p.payload))

theorem writeProperties_eq (p : Publish) (buffer : Bytes) :
    writeProperties p buffer = buffer ++ propertiesBytes p := by
  rw [propertiesBytes, writeProperties, writeProperties]
  cases p.protocol with
  | V4 => exact (List.append_nil buffer).symm
  | V5 =>
    cases p.properties with
    | some q => simp only [PublishProperties.write_eq, List.nil_append]
    | none => simp only [writeRemainingLength_eq, List.nil_append]

theorem write_eq (p : Publish) (buffer : Bytes) :
    write p buffer = (buffer ++ (byte1 p :: (encodedLength (len p) ++ body p)),
      1 + (encodedLength (len p)).length + len p) := by
  have id : ∀ buffer, putSome (fun buffer pkid => putU16 buffer (.ofNat pkid)) buffer
      p.qos.packetId = buffer ++ packetIdBytes p.qos := by
    intro buffer
    rw [packetIdBytes]
    cases p.qos.packetId with
    | some pkid => rfl
    | none => exact (List.append_nil buffer).symm
  simp only [write, writeRemainingLength_eq, putU8, writeMqttString_eq (_ ++ _), id,
    writeProperties_eq, body, List.append_assoc, List.cons_append, List.nil_append]

/-- The packets that the protocol has room for. -/
structure Writable (p : Publish) : Prop where
  properties_of_v5 : p.protocol = .V4 → p.properties = none
  some_property : p.properties ≠ some PublishProperties.empty
  packet_id : ∀ pkid, p.qos.packetId = some pkid → pkid < 65536
  topic : Fits (asBytes p.topic)
  properties : ∀ q, p.properties = some q → PublishProperties.Encodable q
  room : len p ≤ maxLength

theorem properties_inside {p : Publish} (version : p.protocol = .V5) :
    propertiesLen p.properties ≤ len p := by
  rw [len, if_pos version]
  exact Nat.le_add_left _ _

theorem propertiesBytes_length {p : Publish} (writable : Writable p) :
    (propertiesBytes p).length =
      if p.protocol = .V5 then propertiesLen p.properties else 0 := by
  rw [propertiesBytes, writeProperties]
  cases version : p.protocol with
  | V4 => rfl
  | V5 =>
    have inside := properties_inside version
    have room := writable.room
    rw [if_pos rfl]
    cases some : p.properties with
    | some q =>
      rw [some, propertiesLen] at inside
      have sized := PublishProperties.encoded_length
        (writable.properties q some).subscription_identifiers
      simp only [PublishProperties.write_eq, List.nil_append, List.length_append, sized,
        propertiesLen]
      rw [encodedLength_length (by omega)]
    | none =>
      simp only [writeRemainingLength_eq, List.nil_append, propertiesLen]
      exact encodedLength_length (Nat.zero_le _)

/-- `len` is the length of what follows the fixed header, where it has the length of
the properties right. -/
theorem body_length_of {p : Publish} (block : (propertiesBytes p).length =
    if p.protocol = .V5 then propertiesLen p.properties else 0) : (body p).length = len p := by
  have id : (packetIdBytes p.qos).length = if p.qos ≠ .AtMostOnce then 2 else 0 := by
    cases p.qos <;> rfl
  simp only [body, List.length_append, writeMqttString_length, id, block, len]
  split <;> split <;> omega

theorem body_length {p : Publish} (writable : Writable p) : (body p).length = len p :=
  body_length_of (propertiesBytes_length writable)

/-! ## The reader -/

/-- What the reader makes of the first byte. -/
theorem byte1_facts (p : Publish) :
    (byte1 p >>> 4).toNat = 3 ∧ (byte1 p &&& 0b0110) >>> 1 = qosNum p.qos ∧
      decide (byte1 p &&& 0b1000 ≠ 0) = p.dup ∧ decide (byte1 p &&& 0b0001 ≠ 0) = p.retain := by
  have finite : ∀ retain dup : Bool, ∀ num ∈ [(0 : UInt8), 1, 2],
      let byte := (0b00110000 : UInt8) ||| retain.toUInt8 ||| num <<< 1 ||| dup.toUInt8 <<< 3
      (byte >>> 4).toNat = 3 ∧ (byte &&& 0b0110) >>> 1 = num ∧
        decide (byte &&& 0b1000 ≠ 0) = dup ∧ decide (byte &&& 0b0001 ≠ 0) = retain := by
    decide +kernel
  refine finite p.retain p.dup (qosNum p.qos) ?_
  cases p.qos <;> simp [qosNum]

theorem byte1_packetType (p : Publish) (n : Nat × Nat) :
    (headerOf (byte1 p) n).packetType = .ok .Publish := by
  simp only [FixedHeader.packetType, headerOf, (byte1_facts p).1]

/-- The service of a packet, without its identifier. -/
def service : QoSWithPacketId → QoS
  | .AtMostOnce => .AtMostOnce
  | .AtLeastOnce _ => .AtLeastOnce
  | .ExactlyOnce _ => .ExactlyOnce

theorem byte1_qos (p : Publish) : qos ((byte1 p &&& 0b0110) >>> 1) = .ok (service p.qos) := by
  rw [(byte1_facts p).2.1]
  cases p.qos <;> rfl

theorem readPacketId_reads {q : QoSWithPacketId}
    (small : ∀ pkid, q.packetId = some pkid → pkid < 65536) :
    Reads (readPacketId (service q)) (packetIdBytes q) q := by
  have same : ∀ pkid, q.packetId = some pkid → (UInt16.ofNat pkid).toNat = pkid := by
    intro pkid some
    rw [UInt16.toNat_ofNat']
    exact Nat.mod_eq_of_lt (small pkid some)
  cases q with
  | AtMostOnce => exact .pure _
  | AtLeastOnce pkid =>
    have read := (readU16_reads (.ofNat pkid)).map fun n => QoSWithPacketId.AtLeastOnce n.toNat
    rw [same pkid rfl] at read
    exact read
  | ExactlyOnce pkid =>
    have read := (readU16_reads (.ofNat pkid)).map fun n => QoSWithPacketId.ExactlyOnce n.toNat
    rw [same pkid rfl] at read
    exact read

/-- The packet that is read, for what its property reader makes of the rest. -/
theorem readPacket_encoded {p : Publish} (writable : Writable p)
    {properties : Option PublishProperties} {payload : Bytes}
    (read : readProperties p.protocol (propertiesBytes p ++ p.payload) =
      .ok (properties, payload)) :
    readPacket (headerOf (byte1 p) (lenLen (len p), len p)) p.protocol
        (byte1 p :: (encodedLength (len p) ++ body p)) =
      .ok (.Publish { p with properties := properties, payload := payload }, payload) := by
  have header := advance_header (byte1 p) writable.room (body p)
  have topic := readMqttString_reads writable.topic
    (packetIdBytes p.qos ++ (propertiesBytes p ++ p.payload))
  have packetId := readPacketId_reads writable.packet_id (propertiesBytes p ++ p.payload)
  obtain ⟨_, _, dup, retain⟩ := byte1_facts p
  have publish : Publish.read (headerOf (byte1 p) (lenLen (len p), len p)) p.protocol
      (byte1 p :: (encodedLength (len p) ++ body p)) =
      .ok ({ p with properties := properties, payload := payload }, payload) := by
    refine (run_bind_ok (Reads.lift (byte1_qos p) _)).trans ?_
    refine (run_bind_ok header).trans ?_
    refine (run_bind_ok topic).trans ?_
    refine (run_bind_ok packetId).trans ?_
    refine (run_bind_ok read).trans ?_
    rw [← dup, ← retain]
    rfl
  refine (run_bind_ok (Reads.lift (byte1_packetType p _) _)).trans ?_
  exact run_bind_ok publish

/-! ## The round trip -/

/-- `write` appends as many bytes as it returns, and the reader takes the packet
off them, whatever comes behind. -/
def RoundTrips (p : Publish) : Prop :=
  (∀ buffer, write p buffer = (buffer ++ (write p []).1, (write p []).1.length)) ∧
    ∀ rest, readFromNetwork ((write p []).1 ++ rest) p.protocol =
      (.ok (some (.Publish p)), rest)

/-- The properties, if there are any, have few enough subscription identifiers. -/
def IdentifiersFit (p : Publish) : Prop :=
  ∀ q, p.properties = some q → PublishProperties.IdentifiersFit q

theorem writes_its_length {p : Publish} (writable : Writable p) (buffer : Bytes) :
    write p buffer = (buffer ++ (write p []).1, (write p []).1.length) := by
  rw [write_eq, write_eq p []]
  simp only [List.nil_append, List.length_cons, List.length_append, body_length writable]
  congr 1
  omega

theorem write_isFrame {p : Publish} (writable : Writable p) :
    IsFrame (write p []).1 (headerOf (byte1 p) (lenLen (len p), len p)) := by
  have size := body_length writable
  have small : (body p).length ≤ maxLength := by
    rw [size]
    exact writable.room
  have frame := isFrame_encoded (byte1 p) small
  rw [size] at frame
  rw [write_eq]
  exact frame

/-- The property reader on what was written, in front of the payload. -/
theorem readProperties_written {p : Publish} (writable : Writable p) :
    ∃ properties payload, readProperties p.protocol (propertiesBytes p ++ p.payload) =
        .ok (properties, payload) ∧
      (properties = p.properties ↔ IdentifiersFit p) ∧ (IdentifiersFit p → payload = p.payload) := by
  cases version : p.protocol with
  | V4 =>
    have none := writable.properties_of_v5 version
    have fit : IdentifiersFit p := by
      intro q some
      rw [none] at some
      cases some
    refine ⟨Option.none, p.payload, ?_, iff_of_true none.symm fit, fun _ => rfl⟩
    rw [propertiesBytes, writeProperties, version]
    rfl
  | V5 =>
    have inside := properties_inside version
    have room := writable.room
    cases some : p.properties with
    | none =>
      have fit : IdentifiersFit p := by
        intro q other
        rw [some] at other
        cases other
      refine ⟨none, p.payload, ?_, iff_of_true rfl fit, fun _ => rfl⟩
      rw [propertiesBytes, writeProperties, version, some]
      exact readProperties_none p.payload
    | some q =>
      have fits : IdentifiersFit p ↔ PublishProperties.IdentifiersFit q := by
        rw [IdentifiersFit, some]
        exact ⟨fun all => all q rfl, fun fit q' same => by cases same; exact fit⟩
      rw [some, propertiesLen] at inside
      have different : q ≠ PublishProperties.empty := by
        intro same
        rw [same] at some
        exact writable.some_property some
      have small : PublishProperties.len q ≤ maxLength := by omega
      obtain ⟨q', rest, loop, same, left⟩ :=
        PublishProperties.loop_written (writable.properties q some) small p.payload
      refine ⟨Option.some q', rest, ?_, ?_, fun fit => left (fits.mp fit)⟩
      · rw [propertiesBytes, writeProperties, version, some]
        simp only [PublishProperties.write_eq, List.nil_append, List.append_assoc]
        exact readProperties_some small (PublishProperties.len_pos different) loop
      · rw [fits, ← same, Option.some_inj]

/-- A PUBLISH is read back exactly if its subscription identifiers fit. -/
theorem roundTrips_iff {p : Publish} (writable : Writable p) :
    RoundTrips p ↔ IdentifiersFit p := by
  obtain ⟨properties, payload, read, same, left⟩ := readProperties_written writable
  have packet := readPacket_encoded writable read
  have frame := write_isFrame writable
  have bytes : byte1 p :: (encodedLength (len p) ++ body p) = (write p []).1 := by
    rw [write_eq]
    rfl
  rw [bytes] at packet
  have decoded := fun rest => frame.read_append p.protocol rest
  simp only [decodeFrame, packet] at decoded
  constructor
  · rintro ⟨_, trip⟩
    have result := (decoded []).symm.trans (trip [])
    injection result with result _
    injection result with result
    injection result with result
    injection result with result
    have back := congrArg MqttData.Publish.properties result
    exact same.mp back
  · intro fit
    refine ⟨writes_its_length writable, fun rest => ?_⟩
    rw [decoded rest, same.mpr fit, left fit]
    rfl

/-- A PUBLISH with subscription identifiers and no other property. -/
def identified (ids : List Nat) : Publish where
  dup := true
  qos := .AtLeastOnce 7
  retain := false
  topic := "t"
  payload := [1, 2]
  protocol := .V5
  properties := some { PublishProperties.empty with subscriptionIdentifiers := ids }

theorem identified_writable {ids : List Nat} (some : ids ≠ [])
    (small : ∀ id ∈ ids, id ≤ maxLength) (room : len (identified ids) ≤ maxLength) :
    Writable (identified ids) where
  properties_of_v5 version := by cases version
  some_property same := by
    injection same with same
    exact some (congrArg MqttData.PublishProperties.subscriptionIdentifiers same)
  packet_id pkid same := by
    cases same
    decide
  topic := by
    change (asBytes "t").length ≤ 65535
    decide +kernel
  properties q same := by
    cases same
    constructor
    · intro topic none
      cases none
    · intro data none
      cases none
    · intro pair none
      cases none
    · exact small
    · intro typ none
      cases none
  room := room

theorem roundTrips_of_two : RoundTrips (identified [5, 300]) := by
  have writable : Writable (identified [5, 300]) :=
    identified_writable (by decide) (by decide) (by decide +kernel)
  refine (roundTrips_iff writable).mpr ?_
  intro q same
  cases same
  intro last ends
  cases ends
  decide

/-- Three identifiers of one byte: the third is read as payload. -/
theorem third_read_as_payload :
    Writable (identified [1, 2, 3]) ∧ ¬RoundTrips (identified [1, 2, 3]) := by
  constructor
  · exact identified_writable (by decide) (by decide) (by decide +kernel)
  · rintro ⟨_, trip⟩
    have result := trip []
    have read : readFromNetwork ((write (identified [1, 2, 3]) []).1 ++ []) .V5 =
        (.ok (some (.Publish { identified [1, 2] with payload := [11, 3, 1, 2] })), []) := by
      decide +kernel
    have other := result.symm.trans read
    revert other
    decide +kernel

end Publish

end Codec
