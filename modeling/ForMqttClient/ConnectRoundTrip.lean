import ForMqttClient.Connect
import ForMqttClient.FieldRoundTrips
import ForMqttClient.Frames

/-!
# CONNECT read back

The length of a CONNECT is computed apart from what is written, and its flags are
set behind the payload that they announce. For version 5 the three agree: the
header, the fields in front of the payload, will and login are read back as they
are in the options.
-/

namespace Codec

open MqttData ByteReader

namespace LastWillProperties

/-! ## Properties of the will -/

/-- All properties, without the length in front of them. -/
def encoded (p : LastWillProperties) : Bytes :=
  someBytes .WillDelayInterval putU32 p.delayInterval ++
  someBytes .PayloadFormatIndicator putU8 p.payloadFormatIndicator ++
  someBytes .MessageExpiryInterval putU32 p.messageExpiryInterval ++
  someBytes .ContentType writeMqttString p.contentType ++
  someBytes .ResponseTopic writeMqttString p.responseTopic ++
  someBytes .CorrelationData writeMqttBytes p.correlationData ++
  p.userProperties.flatMap (propertyBytes .UserProperty writeUserProperty)

theorem write_eq (p : LastWillProperties) (buffer : Bytes) :
    write p buffer = buffer ++ (encodedLength (len p) ++ encoded p) := by
  simp only [write, writeRemainingLength_eq, putSome_eq putU8_eq, putSome_eq putU32_eq,
    putSome_eq writeMqttString_eq, putSome_eq writeMqttBytes_eq,
    foldl_putProperty_eq writeUserProperty_eq, encoded, List.append_assoc]

/-- `len` is the length of what is written. -/
theorem encoded_length (p : LastWillProperties) : (encoded p).length = len p := by
  simp only [encoded, len, List.length_append, userProperties_length,
    someBytes_length octet_size, someBytes_length longword_size, someBytes_length string_size,
    someBytes_length bytes_size]

theorem len_eq_zero (p : LastWillProperties) : len p = 0 ↔ p = empty := by
  constructor
  · intro zero
    simp only [len, Nat.add_eq_zero_iff] at zero
    obtain ⟨⟨⟨⟨⟨⟨delay, indicator⟩, expiry⟩, content⟩, response⟩, correlation⟩, pairs⟩ := zero
    have noDelay := someLen_eq_zero (fun _ => by omega) delay
    have noIndicator := someLen_eq_zero (fun _ => by omega) indicator
    have noExpiry := someLen_eq_zero (fun _ => by omega) expiry
    have noContent := someLen_eq_zero (fun _ => by omega) content
    have noResponse := someLen_eq_zero (fun _ => by omega) response
    have noCorrelation := someLen_eq_zero (fun _ => by omega) correlation
    have noPairs := sum_map_eq_zero userPropertyLen_pos pairs
    obtain ⟨_, _, _, _, _, _, _⟩ := p
    simp only at noDelay noIndicator noExpiry noContent noResponse noCorrelation noPairs
    subst noDelay noIndicator noExpiry noContent noResponse noCorrelation noPairs
    rfl
  · rintro rfl
    rfl

/-- What the length fields have room for. -/
structure Encodable (p : LastWillProperties) : Prop where
  content_type : ∀ typ, p.contentType = some typ → Fits (asBytes typ)
  response_topic : ∀ topic, p.responseTopic = some topic → Fits (asBytes topic)
  correlation_data : ∀ data, p.correlationData = some data → Fits data
  user_properties : ∀ pair ∈ p.userProperties, Fits (asBytes pair.1) ∧ Fits (asBytes pair.2)

/-- One property after another. -/
theorem encoded_counts {p : LastWillProperties} (encodable : Encodable p) {bound : Nat}
    (small : bound ≤ maxLength) : Counts (propertyTurn turn) bound empty (encoded p) p := by
  let upTo1 := { empty with delayInterval := p.delayInterval }
  let upTo2 := { upTo1 with payloadFormatIndicator := p.payloadFormatIndicator }
  let upTo3 := { upTo2 with messageExpiryInterval := p.messageExpiryInterval }
  let upTo4 := { upTo3 with contentType := p.contentType }
  let upTo5 := { upTo4 with responseTopic := p.responseTopic }
  let upTo6 := { upTo5 with correlationData := p.correlationData }
  have first : Counts (propertyTurn turn) bound empty
      (someBytes .WillDelayInterval putU32 p.delayInterval) upTo1 := by
    refine counts_field (fun value => { empty with delayInterval := value }) small ?_
    intro v _ cursor inside
    exact lookup_reads (takeU32_takes _ v cursor inside)
  have second : Counts (propertyTurn turn) bound upTo1
      (someBytes .PayloadFormatIndicator putU8 p.payloadFormatIndicator) upTo2 := by
    refine counts_field (fun value => { upTo1 with payloadFormatIndicator := value }) small ?_
    intro v _ cursor inside
    exact lookup_reads (takeU8_takes _ v cursor inside)
  have third : Counts (propertyTurn turn) bound upTo2
      (someBytes .MessageExpiryInterval putU32 p.messageExpiryInterval) upTo3 := by
    refine counts_field (fun value => { upTo2 with messageExpiryInterval := value }) small ?_
    intro v _ cursor inside
    exact lookup_reads (takeU32_takes _ v cursor inside)
  have fourth : Counts (propertyTurn turn) bound upTo3
      (someBytes .ContentType writeMqttString p.contentType) upTo4 := by
    refine counts_field (fun value => { upTo3 with contentType := value }) small ?_
    intro typ value cursor inside
    have fits := encodable.content_type typ value
    exact lookup_reads (takeString_takes _ fits cursor inside)
  have fifth : Counts (propertyTurn turn) bound upTo4
      (someBytes .ResponseTopic writeMqttString p.responseTopic) upTo5 := by
    refine counts_field (fun value => { upTo4 with responseTopic := value }) small ?_
    intro topic value cursor inside
    have fits := encodable.response_topic topic value
    exact lookup_reads (takeString_takes _ fits cursor inside)
  have sixth : Counts (propertyTurn turn) bound upTo5
      (someBytes .CorrelationData writeMqttBytes p.correlationData) upTo6 := by
    refine counts_field (fun value => { upTo5 with correlationData := value }) small ?_
    intro data value cursor inside
    have fits := encodable.correlation_data data value
    exact lookup_reads (takeBytes_takes _ fits cursor inside)
  have seventh : Counts (propertyTurn turn) bound upTo6
      (p.userProperties.flatMap (propertyBytes .UserProperty writeUserProperty)) p := by
    refine counts_repeated (fun pairs => { upTo6 with userProperties := pairs }) small [] ?_
    intro before pair member cursor inside
    have fits := encodable.user_properties pair member
    exact lookup_reads (takeUserProperty_takes _ fits.1 fits.2 cursor inside)
  exact (((((first.trans second).trans third).trans fourth).trans fifth).trans sixth).trans seventh

theorem read_reads {p : LastWillProperties} (encodable : Encodable p)
    (small : len p ≤ maxLength) :
    Reads read (encodedLength (len p) ++ encoded p) (if p = empty then none else some p) :=
  readProperties_reads (encoded_length p) small (len_eq_zero p) (encoded_counts encodable small)

end LastWillProperties

namespace LastWill

/-! ## The will -/

/-- What the length fields have room for. -/
structure Encodable (w : LastWill) : Prop where
  topic : Fits (asBytes w.topic)
  message : Fits w.message
  properties : ∀ p, w.properties = some p → p.Encodable

def propertiesBytes (w : LastWill) : Bytes :=
  match w.properties with
  | some p => encodedLength p.len ++ p.encoded
  | none => encodedLength 0

/-- The will in the payload. -/
def bytes (w : LastWill) : Bytes :=
  propertiesBytes w ++ (writeMqttString [] w.topic ++ writeMqttBytes [] w.message)

def flags (w : LastWill) : UInt8 :=
  let connectFlags := (0x04 : UInt8) ||| QoS.toU8 w.qos <<< 3
  if w.retain then connectFlags ||| 0x20 else connectFlags

theorem write_eq (w : LastWill) (buffer : Bytes) :
    write w buffer = (buffer ++ w.bytes, w.flags) := by
  cases properties : w.properties with
  | some p =>
    simp only [write, bytes, flags, propertiesBytes, properties]
    rw [p.write_eq, writeMqttBytes_eq, writeMqttString_eq (buffer ++ _)]
    simp only [List.append_assoc]
  | none =>
    simp only [write, bytes, flags, propertiesBytes, properties]
    rw [writeRemainingLength_eq, writeMqttBytes_eq, writeMqttString_eq (buffer ++ _)]
    simp only [List.append_assoc]

/-- `len` is the length of what is written. -/
theorem bytes_length {w : LastWill} (small : w.len ≤ maxLength) : w.bytes.length = w.len := by
  cases properties : w.properties with
  | some p =>
    simp only [len, properties] at small
    have width := encodedLength_length (show p.len ≤ maxLength by omega)
    simp only [bytes, propertiesBytes, len, properties, List.length_append, width,
      p.encoded_length, writeMqttString_length, writeMqttBytes_length]
    omega
  | none =>
    have width : (encodedLength 0).length = 1 := encodedLength_length (Nat.zero_le _)
    simp only [bytes, propertiesBytes, len, properties, List.length_append, width,
      writeMqttString_length, writeMqttBytes_length]
    omega

theorem flags_bits (w : LastWill) :
    w.flags &&& 0b100 ≠ 0 ∧ Codec.qos ((w.flags &&& 0b11000) >>> 3) = .ok w.qos ∧
      decide (w.flags &&& 0b00100000 ≠ 0) = w.retain := by
  obtain ⟨topic, message, qos, retain, properties⟩ := w
  simp only [flags]
  cases qos <;> cases retain <;> exact ⟨by decide, rfl, rfl⟩

/-- Properties without a field are not told from none. -/
def present (w : LastWill) : LastWill :=
  { w with properties := w.properties.filter (· ≠ .empty) }

end LastWill

namespace Login

/-! ## The login -/

/-- A string that is left out if it is empty. -/
def stringBytes (s : String) : Bytes := if s = "" then [] else writeMqttString [] s

def bytes (l : Login) : Bytes := stringBytes l.username ++ stringBytes l.password

def flags (l : Login) : UInt8 :=
  (if l.username = "" then 0 else 0x80) ||| (if l.password = "" then 0 else 0x40)

theorem write_eq (l : Login) (buffer : Bytes) : write l buffer = (buffer ++ l.bytes, l.flags) := by
  by_cases username : l.username = "" <;> by_cases password : l.password = "" <;>
    simp [write, bytes, flags, stringBytes, username, password,
      writeMqttString_eq buffer, writeMqttString_eq (_ ++ _)]

theorem flags_bits (l : Login) :
    (l.flags &&& 0b10000000 = 0 ↔ l.username = "") ∧
      (l.flags &&& 0b01000000 = 0 ↔ l.password = "") := by
  by_cases username : l.username = ""
  · by_cases password : l.password = ""
    · rw [flags, if_pos username, if_pos password]
      exact ⟨iff_of_true (by decide) username, iff_of_true (by decide) password⟩
    · rw [flags, if_pos username, if_neg password]
      exact ⟨iff_of_true (by decide) username, iff_of_false (by decide) password⟩
  · by_cases password : l.password = ""
    · rw [flags, if_neg username, if_pos password]
      exact ⟨iff_of_false (by decide) username, iff_of_true (by decide) password⟩
    · rw [flags, if_neg username, if_neg password]
      exact ⟨iff_of_false (by decide) username, iff_of_false (by decide) password⟩

theorem stringBytes_length (s : String) : (stringBytes s).length = stringLen s := by
  rw [stringBytes, stringLen]
  by_cases empty : s = ""
  · rw [if_pos empty, if_pos empty]
    rfl
  · rw [if_neg empty, if_neg empty, writeMqttString_length]

theorem bytes_length (l : Login) : l.bytes.length = l.len := by
  rw [bytes, len, List.length_append, stringBytes_length, stringBytes_length]

theorem readString_reads {s : String} (fits : Fits (asBytes s)) {bit : UInt8}
    (flag : bit = 0 ↔ s = "") : Reads (readString bit) (stringBytes s) s := by
  rw [readString]
  by_cases empty : s = ""
  · rw [if_pos (flag.mpr empty), stringBytes, if_pos empty, empty]
    exact .pure ""
  · rw [if_neg (mt flag.mp empty), stringBytes, if_neg empty]
    exact readMqttString_reads fits

/-- Two empty strings are not told from no login. -/
def present (l : Login) : Option Login :=
  if l.username = "" ∧ l.password = "" then none else some l

theorem read_reads {l : Login} (username : Fits (asBytes l.username))
    (password : Fits (asBytes l.password)) {connectFlags : UInt8}
    (usernameFlag : connectFlags &&& 0b10000000 = 0 ↔ l.username = "")
    (passwordFlag : connectFlags &&& 0b01000000 = 0 ↔ l.password = "") :
    Reads (read connectFlags) l.bytes (present l) := by
  refine (readString_reads username usernameFlag).bind ?_
  refine (readString_reads password passwordFlag).bind_last ?_
  rw [present]
  by_cases empty : l.username = "" ∧ l.password = ""
  · rw [if_pos empty, if_pos empty]
    exact .pure none
  · rw [if_neg empty, if_neg empty]
    exact .pure (some l)

/-- Without a login there is nothing to read. -/
theorem read_missing {connectFlags : UInt8} (usernameFlag : connectFlags &&& 0b10000000 = 0)
    (passwordFlag : connectFlags &&& 0b01000000 = 0) : Reads (read connectFlags) [] none := by
  have empty : Fits (asBytes "") := by decide +kernel
  exact read_reads (l := ⟨"", ""⟩) empty empty (iff_of_true usernameFlag rfl)
    (iff_of_true passwordFlag rfl)

end Login

namespace LastWill

theorem read_missing {connectFlags : UInt8} (flag : connectFlags &&& 0b100 = 0)
    (others : connectFlags &&& 0b00111000 = 0) : Reads (read connectFlags) [] none := by
  intro rest
  rw [read, if_pos flag, if_neg (not_not_intro others)]
  rfl

theorem read_reads {w : LastWill} (encodable : w.Encodable) (small : w.len ≤ maxLength)
    {connectFlags : UInt8} (flag : connectFlags &&& 0b100 ≠ 0)
    (qosFlags : Codec.qos ((connectFlags &&& 0b11000) >>> 3) = .ok w.qos)
    (retainFlag : decide (connectFlags &&& 0b00100000 ≠ 0) = w.retain) :
    Reads (read connectFlags) w.bytes (some w.present) := by
  have properties : Reads LastWillProperties.read w.propertiesBytes
      (w.properties.filter (· ≠ .empty)) := by
    rw [propertiesBytes]
    cases given : w.properties with
    | none => exact readProperties_none
    | some p =>
      simp only [len, given] at small
      have inside : p.len ≤ maxLength := by omega
      have reads := LastWillProperties.read_reads (encodable.properties p given) inside
      rw [Option.filter_some]
      by_cases nothing : p = .empty
      · rw [if_pos nothing] at reads
        rw [if_neg (by simp [nothing])]
        exact reads
      · rw [if_neg nothing] at reads
        rw [if_pos (by simp [nothing])]
        exact reads
  rw [read, if_neg flag, bytes]
  refine properties.bind ?_
  refine (readMqttString_reads encodable.topic).bind ?_
  refine (readMqttBytes_reads encodable.message).bind_last ?_
  refine (Reads.lift qosFlags).bind_nil ?_
  rw [retainFlag]
  exact .pure _

end LastWill

namespace Connect

/-! ## The flags -/

def partFlags {α : Type} (flags : α → UInt8) : Option α → UInt8
  | some part => flags part
  | none => 0

def flags (packet : Connect) : UInt8 :=
  (if packet.cleanSession then 0x02 else 0) ||| partFlags LastWill.flags packet.lastWill |||
    partFlags Login.flags packet.login

/-- Clean session, will and login set bits of their own. -/
theorem flags_apart : ∀ clean ∈ [(0 : UInt8), 0x02],
    ∀ will ∈ [(0 : UInt8), 0x04, 0x0C, 0x14, 0x24, 0x2C, 0x34],
    ∀ login ∈ [(0 : UInt8), 0x80, 0x40, 0xC0], let flags := clean ||| will ||| login
      flags &&& 0x02 = clean ∧ flags &&& 0b00111100 = will ∧ flags &&& 0b11000000 = login := by
  decide +kernel

/-! ## What is written -/

def level : Protocol → UInt8
  | .V4 => 0x04
  | .V5 => 0x05

/-- The empty property block of version 5. -/
def block : Protocol → Bytes
  | .V4 => []
  | .V5 => encodedLength 0

def partBytes {α : Type} (bytes : α → Bytes) : Option α → Bytes
  | some part => bytes part
  | none => []

/-- Everything behind the flags. -/
def behindFlags (packet : Connect) : Bytes :=
  putU16 [] (.ofNat packet.keepAlive) ++ (block packet.protocol ++
    (writeMqttString [] packet.clientId ++
      (partBytes LastWill.bytes packet.lastWill ++ partBytes Login.bytes packet.login)))

/-- Everything behind the fixed header. -/
def body (packet : Connect) : Bytes :=
  writeMqttString [] "MQTT" ++ level packet.protocol :: packet.flags :: packet.behindFlags

theorem writePart_eq {α : Type} {write : α → Bytes → Bytes × UInt8} {bytes : α → Bytes}
    {flags : α → UInt8}
    (written : ∀ part buffer, write part buffer = (buffer ++ bytes part, flags part))
    (buffer : Bytes) (connectFlags : UInt8) (part : Option α) :
    writePart write buffer connectFlags part =
      (buffer ++ partBytes bytes part, connectFlags ||| partFlags flags part) := by
  cases part with
  | some part => simp only [writePart, partBytes, partFlags, written]
  | none => simp only [writePart, partBytes, partFlags, List.append_nil, UInt8.or_zero]

theorem setByte_behind {ε : Type} (front back : Bytes) (before byte : UInt8) :
    (setByte (front ++ before :: back) front.length byte : Outcome ε Bytes) =
      .ok (front ++ byte :: back) := by
  rw [setByte, if_pos (by simp), List.set_append_right _ _ (Nat.le_refl _), Nat.sub_self]
  rfl

/-- The placeholder is where the flags belong. -/
theorem write_eq {packet : Connect} (plain : packet.connectProperties = none) :
    write packet [] =
      .ok (0x10 :: (encodedLength packet.len ++ packet.body), packet.len) := by
  have front : (0x10 :: (encodedLength packet.len ++
      (writeMqttString [] "MQTT" ++ [level packet.protocol]))).length =
      1 + (encodedLength packet.len).length + 2 + 4 + 1 := by
    have name : (writeMqttString [] "MQTT").length = 6 := by decide +kernel
    simp only [List.length_cons, List.length_append, List.length_nil, name]
    omega
  have set : ∀ before, (setByte (0x10 :: (encodedLength packet.len ++
      (writeMqttString [] "MQTT" ++ [level packet.protocol])) ++ before :: packet.behindFlags)
        (1 + (encodedLength packet.len).length + 2 + 4 + 1) packet.flags :
        Outcome PacketParseError Bytes) =
      .ok (0x10 :: (encodedLength packet.len ++ packet.body)) := by
    intro before
    rw [← front, setByte_behind, body]
    simp only [List.cons_append, List.append_assoc, List.nil_append]
  have placed := set (if packet.cleanSession then 0x02 else 0)
  simp only [behindFlags, block, level, List.cons_append, List.append_assoc, List.nil_append]
    at placed
  cases version : packet.protocol <;>
  · simp only [write, version, plain, writePart_eq LastWill.write_eq, writePart_eq Login.write_eq,
      writeRemainingLength_eq, writeMqttString_eq (_ :: _), putU8, putU16_eq (_ :: _),
      List.cons_append, List.nil_append, List.append_assoc]
    rw [version] at placed
    exact congrArg (· >>= fun buffer => pure (buffer, packet.len)) placed

/-! ## The round trip -/

/-- What the length fields of the strings have room for. -/
structure Encodable (packet : Connect) : Prop where
  client_id : Fits (asBytes packet.clientId)
  last_will : ∀ w, packet.lastWill = some w → w.Encodable
  username : ∀ l, packet.login = some l → Fits (asBytes l.username)
  password : ∀ l, packet.login = some l → Fits (asBytes l.password)

section Packets

variable {packet : Connect}

theorem will_small (room : packet.len ≤ maxLength) {w : LastWill}
    (given : packet.lastWill = some w) : w.len ≤ maxLength := by
  simp only [len, given, someLen] at room
  omega

/-- `len` is the length of what is written. -/
theorem body_length (plain : packet.connectProperties = none) (room : packet.len ≤ maxLength) :
    packet.body.length = packet.len := by
  have name : (writeMqttString [] "MQTT").length = 6 := by decide +kernel
  have nameLen : strLen "MQTT" = 4 := by decide +kernel
  have one : (encodedLength 0).length = 1 := encodedLength_length (Nat.zero_le _)
  have will : (partBytes LastWill.bytes packet.lastWill).length =
      someLen LastWill.len packet.lastWill := by
    cases given : packet.lastWill with
    | none => rfl
    | some w => exact LastWill.bytes_length (will_small room given)
  have login : (partBytes Login.bytes packet.login).length =
      someLen Login.len packet.login := by
    cases packet.login with
    | none => rfl
    | some l => exact l.bytes_length
  cases version : packet.protocol <;>
  · simp only [body, behindFlags, block, len, propertiesLen, plain, version, List.length_append,
      List.length_cons, List.length_nil, name, nameLen, one, will, login, putU16,
      writeMqttString_length]
    omega

theorem mem_cleanFlags (packet : Connect) :
    (if packet.cleanSession then 0x02 else 0) ∈ [(0 : UInt8), 0x02] := by
  cases packet.cleanSession <;> decide

theorem mem_willFlags (will : Option LastWill) :
    partFlags LastWill.flags will ∈ [(0 : UInt8), 0x04, 0x0C, 0x14, 0x24, 0x2C, 0x34] := by
  cases will with
  | none => decide
  | some w =>
    simp only [partFlags, LastWill.flags]
    cases w.qos <;> cases w.retain <;> decide

theorem mem_loginFlags (login : Option Login) :
    partFlags Login.flags login ∈ [(0 : UInt8), 0x80, 0x40, 0xC0] := by
  cases login with
  | none => decide
  | some l =>
    simp only [partFlags, Login.flags]
    split <;> split <;> decide

/-- What the readers see of the flags. -/
theorem flags_parts (packet : Connect) :
    packet.flags &&& 0x02 = (if packet.cleanSession then 0x02 else 0) ∧
      packet.flags &&& 0b00111100 = partFlags LastWill.flags packet.lastWill ∧
      packet.flags &&& 0b11000000 = partFlags Login.flags packet.login :=
  flags_apart _ (mem_cleanFlags packet) _ (mem_willFlags packet.lastWill) _
    (mem_loginFlags packet.login)

/-- Masks within the mask of a part. -/
theorem mask_mask (flags mask part : UInt8) (inside : mask &&& part = part) :
    flags &&& part = flags &&& mask &&& part := by
  rw [UInt8.and_assoc, inside]

theorem readWill (encodable : packet.Encodable) (room : packet.len ≤ maxLength) :
    Reads (LastWill.read packet.flags) (partBytes LastWill.bytes packet.lastWill)
      (packet.lastWill.map LastWill.present) := by
  obtain ⟨_, bits, _⟩ := packet.flags_parts
  have flag := mask_mask packet.flags 0b00111100 0b100 rfl
  have others := mask_mask packet.flags 0b00111100 0b00111000 rfl
  have qosFlags := mask_mask packet.flags 0b00111100 0b11000 rfl
  have retainFlag := mask_mask packet.flags 0b00111100 0b00100000 rfl
  cases given : packet.lastWill with
  | none =>
    rw [given] at bits
    rw [bits] at flag others
    exact LastWill.read_missing flag others
  | some w =>
    rw [given] at bits
    rw [bits] at flag qosFlags retainFlag
    have small := will_small room given
    obtain ⟨there, service, retained⟩ := w.flags_bits
    refine LastWill.read_reads (encodable.last_will w given) small ?_ ?_ ?_
    · rw [flag]
      exact there
    · rw [qosFlags]
      exact service
    · rw [retainFlag]
      exact retained

theorem readLogin (encodable : packet.Encodable) :
    Reads (Login.read packet.flags) (partBytes Login.bytes packet.login)
      (packet.login.bind Login.present) := by
  obtain ⟨_, _, bits⟩ := packet.flags_parts
  have username := mask_mask packet.flags 0b11000000 0b10000000 rfl
  have password := mask_mask packet.flags 0b11000000 0b01000000 rfl
  rw [bits] at username password
  cases given : packet.login with
  | none =>
    rw [given] at username password
    exact Login.read_missing username password
  | some l =>
    rw [given] at username password
    obtain ⟨usernameBit, passwordBit⟩ := l.flags_bits
    refine Login.read_reads (encodable.username l given) (encodable.password l given) ?_ ?_
    · rw [username]
      exact usernameBit
    · rw [password]
      exact passwordBit

end Packets

/-! ## What a broker makes of the packet -/

/-- The fields of a CONNECT of version 5. -/
structure Fields where
  name : String
  level : UInt8
  cleanSession : Bool
  keepAlive : Nat
  propertiesLen : Nat
  clientId : String
  lastWill : Option LastWill
  login : Option Login
  deriving DecidableEq, Repr

/-- The fields one after another, each with the reader of its type. -/
def readFields (fixedHeader : FixedHeader) : Parser Fields := do
  advance fixedHeader.fixedHeaderLen
  let name ← readMqttString
  let level ← readU8
  let connectFlags ← readU8
  let keepAlive ← readU16
  let (propertiesLenLen, propertiesLen) ← peekLength
  advance propertiesLenLen
  let clientId ← readMqttString
  let lastWill ← LastWill.read connectFlags
  let login ← Login.read connectFlags
  return {
    name := name
    level := level
    cleanSession := connectFlags &&& 0x02 ≠ 0
    keepAlive := keepAlive.toNat
    propertiesLen := propertiesLen
    clientId := clientId
    lastWill := lastWill
    login := login }

/-- The fields that these options ask for. -/
def fieldsOf (option : ConnectOptions) : Fields where
  name := "MQTT"
  level := 5
  cleanSession := option.cleanSession
  keepAlive := option.keepAlive
  propertiesLen := 0
  clientId := option.clientId
  lastWill := option.lastWill.map LastWill.present
  login := option.credentials.bind fun credentials =>
    Login.present ⟨credentials.1, credentials.2⟩

theorem new_eq (option : ConnectOptions) (protocol : Protocol) :
    new option protocol =
      .ok (0x10 :: (encodedLength (ofOptions option protocol).len ++
        (ofOptions option protocol).body)) := by
  have plain : (ofOptions option protocol).connectProperties = none := rfl
  rw [new, write_eq plain]
  rfl

/-- A CONNECT of version 5 is one frame, and it is read back as its options. -/
theorem new_read_back {option : ConnectOptions}
    (encodable : (ofOptions option .V5).Encodable)
    (room : (ofOptions option .V5).len ≤ maxLength) :
    ∃ bytes header, new option .V5 = .ok bytes ∧ IsFrame bytes header ∧
      readFields header bytes = .ok (fieldsOf option, []) := by
  have plain : (ofOptions option .V5).connectProperties = none := rfl
  have size := body_length plain room
  have frame := isFrame_encoded 0x10 (size ▸ room)
  rw [size] at frame
  refine ⟨_, _, new_eq option .V5, frame, ?_⟩
  have name : Reads readMqttString (writeMqttString [] "MQTT") "MQTT" :=
    readMqttString_reads (by decide +kernel)
  have keepAlive : (UInt16.ofNat option.keepAlive).toNat = option.keepAlive := by
    rw [UInt16.toNat_ofNat']
    exact Nat.mod_eq_of_lt option.keepAlive_lt
  obtain ⟨clean, _, _⟩ := (ofOptions option .V5).flags_parts
  have cleanSession : decide ((ofOptions option .V5).flags &&& 0x02 ≠ 0) = option.cleanSession := by
    rw [clean, ofOptions]
    cases option.cleanSession <;> rfl
  have login := readLogin encodable []
  rw [List.append_nil] at login
  refine (run_bind_ok (advance_header 0x10 room _)).trans ?_
  refine (run_bind_ok (name _)).trans ?_
  refine (run_bind_ok (readU8_reads (level .V5) _)).trans ?_
  refine (run_bind_ok (readU8_reads (ofOptions option .V5).flags _)).trans ?_
  refine (run_bind_ok (readU16_reads (.ofNat option.keepAlive) _)).trans ?_
  refine (run_bind_ok (peekLength_encoded (Nat.zero_le _) _)).trans ?_
  refine (run_bind_ok (advance_reads (Nat.zero_le _) _)).trans ?_
  refine (run_bind_ok (readMqttString_reads encodable.client_id _)).trans ?_
  refine (run_bind_ok (readWill encodable room _)).trans ?_
  refine (run_bind_ok login).trans ?_
  rw [cleanSession, keepAlive, fieldsOf, ofOptions, Option.bind_map]
  rfl

/-- Options with everything that is optional. -/
def fullOptions : ConnectOptions where
  keepAlive := 60
  autoReconnect := false
  cleanSession := true
  clientId := "id"
  credentials := some ("u", "p")
  lastWill := some
    { topic := "t"
      message := [1, 2]
      qos := .AtLeastOnce
      retain := true
      properties := some
        { LastWillProperties.empty with
          delayInterval := some 7
          userProperties := [("k", "v")] } }
  keepAlive_lt := defaultKeepAlive_lt

theorem full_read_back :
    ∃ bytes header, new fullOptions .V5 = .ok bytes ∧ IsFrame bytes header ∧
      readFields header bytes = .ok (fieldsOf fullOptions, []) := by
  refine new_read_back ?_ (by decide +kernel)
  constructor
  · decide +kernel
  · intro w same
    cases same
    refine ⟨by decide +kernel, by decide, ?_⟩
    intro p same
    cases same
    refine ⟨by rintro _ ⟨⟩, by rintro _ ⟨⟩, by rintro _ ⟨⟩, ?_⟩
    intro pair member
    cases List.mem_singleton.mp member
    decide +kernel
  · intro l same
    cases same
    decide +kernel
  · intro l same
    cases same
    decide +kernel

end Connect

end Codec
