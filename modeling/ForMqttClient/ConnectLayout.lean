import ForMqttClient.ConnectRoundTrip

/-!
# CONNECT of version 3.1.1

The layout of the packet, written down apart from the writer. Will and login are
written without knowing the version, and the will puts its property length in
front of its topic, which version 3.1.1 does not have.
-/

namespace Codec

open MqttData ByteReader

namespace Connect

/-! ## The layout -/

def lengthPrefixed (bytes : Bytes) : Bytes :=
  .ofNat (bytes.length / 256) :: .ofNat bytes.length :: bytes

def bit (b : Bool) (n : Nat) : Nat := if b then 2 ^ n else 0

/-- User name, password, retain, two bits of quality of service, will and clean
session, from the highest bit to the second lowest. -/
def layoutFlags (option : ConnectOptions) : UInt8 :=
  let (username, password) := option.credentials.getD ("", "")
  let will := match option.lastWill with
    | some w => bit w.retain 5 + 8 * (QoS.toU8 w.qos).toNat + 4
    | none => 0
  .ofNat (bit (username ≠ "") 7 + bit (password ≠ "") 6 + will + bit option.cleanSession 1)

def layoutPayload (option : ConnectOptions) : Bytes :=
  let (username, password) := option.credentials.getD ("", "")
  let will := match option.lastWill with
    | some w => lengthPrefixed (asBytes w.topic) ++ lengthPrefixed w.message
    | none => []
  lengthPrefixed (asBytes option.clientId) ++ will ++
    (if username = "" then [] else lengthPrefixed (asBytes username)) ++
    (if password = "" then [] else lengthPrefixed (asBytes password))

/-- Everything behind the remaining length. -/
def layoutBody (option : ConnectOptions) : Bytes :=
  lengthPrefixed (asBytes "MQTT") ++
    ([4, layoutFlags option, .ofNat (option.keepAlive / 256), .ofNat option.keepAlive] ++
      layoutPayload option)

def layout (option : ConnectOptions) : Bytes :=
  0x10 :: (encodedLength (layoutBody option).length ++ layoutBody option)

/-- The packet has this layout, and its remaining length is that of what follows. -/
def WritesLayout (option : ConnectOptions) : Prop :=
  new option .V4 = .ok (layout option) ∧ ∃ header, IsFrame (layout option) header

/-! ## When the packet has the layout -/

theorem writeMqttBytes_fits {bytes : Bytes} (fits : Fits bytes) :
    writeMqttBytes [] bytes = lengthPrefixed bytes := by
  have size : (UInt16.ofNat bytes.length).toNat = bytes.length := by
    rw [UInt16.toNat_ofNat']
    exact Nat.mod_eq_of_lt (Nat.lt_succ_of_le fits)
  rw [writeMqttBytes, putU16, size]
  rfl

theorem lengthPrefixed_length (bytes : Bytes) :
    (lengthPrefixed bytes).length = 2 + bytes.length := by
  rw [lengthPrefixed, List.length_cons, List.length_cons]
  omega

/-- What the length fields of client identifier and login have room for. -/
structure Lengths (option : ConnectOptions) : Prop where
  client_id : Fits (asBytes option.clientId)
  username : Fits (asBytes (option.credentials.getD ("", "")).1)
  password : Fits (asBytes (option.credentials.getD ("", "")).2)

section Options

variable {option : ConnectOptions}

theorem stringBytes_fits {s : String} (fits : Fits (asBytes s)) :
    Login.stringBytes s = if s = "" then [] else lengthPrefixed (asBytes s) := by
  rw [Login.stringBytes, writeMqttString, writeMqttBytes_fits fits]

/-- Two empty strings are as good as no login. -/
theorem loginBytes_eq (lengths : Lengths option) :
    partBytes Login.bytes (ofOptions option .V4).login =
      (if (option.credentials.getD ("", "")).1 = "" then []
        else lengthPrefixed (asBytes (option.credentials.getD ("", "")).1)) ++
      (if (option.credentials.getD ("", "")).2 = "" then []
        else lengthPrefixed (asBytes (option.credentials.getD ("", "")).2)) := by
  rw [← stringBytes_fits lengths.username, ← stringBytes_fits lengths.password, ofOptions]
  cases option.credentials with
  | none => rfl
  | some credentials => rfl

theorem loginFlags_eq (option : ConnectOptions) :
    partFlags Login.flags (ofOptions option .V4).login =
      (if (option.credentials.getD ("", "")).1 ≠ "" then 0x80 else 0) |||
        (if (option.credentials.getD ("", "")).2 ≠ "" then 0x40 else 0) := by
  rw [ofOptions]
  cases option.credentials with
  | none => rfl
  | some credentials =>
    simp only [Option.map_some, partFlags, Login.flags, Option.getD_some, ite_not]

theorem keepAliveBytes_eq (option : ConnectOptions) :
    putU16 [] (.ofNat option.keepAlive) =
      [.ofNat (option.keepAlive / 256), .ofNat option.keepAlive] := by
  have size : (UInt16.ofNat option.keepAlive).toNat = option.keepAlive := by
    rw [UInt16.toNat_ofNat']
    exact Nat.mod_eq_of_lt option.keepAlive_lt
  rw [putU16, size]
  rfl

theorem flags_of_no_will (missing : option.lastWill = none) :
    (ofOptions option .V4).flags = layoutFlags option := by
  have finite : ∀ clean username password : Bool,
      ((if clean then 0x02 else 0) ||| 0 |||
        ((if username then 0x80 else 0) ||| (if password then 0x40 else 0)) : UInt8) =
      .ofNat (bit username 7 + bit password 6 + 0 + bit clean 1) := by
    decide
  have bits := finite option.cleanSession ((option.credentials.getD ("", "")).1 ≠ "")
    ((option.credentials.getD ("", "")).2 ≠ "")
  have will : (ofOptions option .V4).lastWill = none := missing
  rw [flags, loginFlags_eq, will, layoutFlags, missing]
  change (if option.cleanSession then 0x02 else 0) ||| 0 ||| _ = _
  simpa using bits

theorem body_of_no_will (lengths : Lengths option) (missing : option.lastWill = none) :
    (ofOptions option .V4).body = layoutBody option := by
  have name : writeMqttString [] "MQTT" = lengthPrefixed (asBytes "MQTT") := by decide +kernel
  have clientId : writeMqttString [] option.clientId = lengthPrefixed (asBytes option.clientId) :=
    writeMqttBytes_fits lengths.client_id
  have will : (ofOptions option .V4).lastWill = none := missing
  rw [body, behindFlags, loginBytes_eq lengths, flags_of_no_will missing, will, layoutBody,
    layoutPayload, missing, name]
  change _ ++ _ :: _ :: (putU16 [] (.ofNat option.keepAlive) ++
    ([] ++ (writeMqttString [] option.clientId ++ _))) = _
  rw [keepAliveBytes_eq, clientId]
  simp only [partBytes, List.nil_append, List.cons_append, List.append_assoc]
  rfl

theorem layout_of_no_will (lengths : Lengths option) (missing : option.lastWill = none) :
    WritesLayout option := by
  have body := body_of_no_will lengths missing
  have plain : (ofOptions option .V4).connectProperties = none := rfl
  have will : (ofOptions option .V4).lastWill = none := missing
  have room : (ofOptions option .V4).len ≤ maxLength := by
    have nameLen : strLen "MQTT" = 4 := by decide +kernel
    have clientId : strLen option.clientId ≤ 65535 := lengths.client_id
    have login : someLen Login.len (ofOptions option .V4).login ≤ 2 * 65537 := by
      have username := lengths.username
      have password := lengths.password
      rw [ofOptions]
      cases given : option.credentials with
      | none => exact Nat.zero_le _
      | some credentials =>
        rw [given] at username password
        have bound {s : String} (fits : Fits (asBytes s)) : Login.stringLen s ≤ 65537 := by
          have short : strLen s ≤ 65535 := fits
          rw [Login.stringLen]
          split <;> omega
        have first := bound username
        have second := bound password
        exact Nat.le_trans (Nat.add_le_add first second) (Nat.le_of_eq (Nat.two_mul _).symm)
    simp only [len, will, someLen, nameLen, maxLength]
    change 2 + 4 + 1 + 1 + 2 + (2 + strLen option.clientId) + 0 + someLen Login.len _ ≤ 268435455
    omega
  have size := body_length plain room
  have frame := isFrame_encoded 0x10 (size ▸ room)
  rw [body] at size frame
  refine ⟨?_, _, frame⟩
  rw [new_eq, ← size, body]
  rfl

theorem layoutBody_of_will (lengths : Lengths option) {w : LastWill}
    (given : option.lastWill = some w) :
    (layoutBody option).length =
      6 + 4 + (2 + strLen option.clientId) + (2 + strLen w.topic + 2 + w.message.length) +
        (partBytes Login.bytes (ofOptions option .V4).login).length := by
  have name : (asBytes "MQTT").length = 4 := by decide +kernel
  simp only [loginBytes_eq lengths, layoutBody, layoutPayload, given, lengthPrefixed_length, name,
    List.length_append, List.length_cons, List.length_nil, strLen]
  omega

/-- With a will the packet is longer than its layout. -/
theorem no_layout_of_will (lengths : Lengths option) {w : LastWill}
    (given : option.lastWill = some w) : new option .V4 ≠ .ok (layout option) := by
  intro same
  rw [new_eq] at same
  injection same with same
  injection same with _ same
  have sizes := congrArg List.length same
  have will : (ofOptions option .V4).lastWill = some w := given
  have nameLen : strLen "MQTT" = 4 := by decide +kernel
  have size := layoutBody_of_will lengths given
  have login : (partBytes Login.bytes (ofOptions option .V4).login).length =
      someLen Login.len (ofOptions option .V4).login := by
    cases (ofOptions option .V4).login with
    | none => rfl
    | some l => exact l.bytes_length
  have computed : (layoutBody option).length < (ofOptions option .V4).len := by
    have counted : 2 + strLen w.topic + 2 + w.message.length < w.len := by
      rw [LastWill.len]
      cases w.properties with
      | some p =>
        have width := lenLen_pos p.len
        simp only
        omega
      | none =>
        simp only
        omega
    simp only [len, will, someLen, nameLen]
    change _ < 2 + 4 + 1 + 1 + 2 + (2 + strLen option.clientId) + _ + someLen Login.len _
    omega
  have written : (layoutBody option).length < (ofOptions option .V4).body.length := by
    have name : (writeMqttString [] "MQTT").length = 6 := by decide +kernel
    have there : 1 ≤ w.propertiesBytes.length := by
      rw [LastWill.propertiesBytes]
      split
      · rw [List.length_append]
        exact Nat.le_trans (encodedLength_pos _) (Nat.le_add_right _ _)
      · exact encodedLength_pos 0
    have clientId : (writeMqttString [] (ofOptions option .V4).clientId).length =
        2 + strLen option.clientId := writeMqttString_length _
    have payload : partBytes LastWill.bytes (some w) = w.bytes := rfl
    simp only [body, behindFlags, will, payload, LastWill.bytes, List.length_append,
      List.length_cons, List.length_nil, writeMqttString_length w.topic, writeMqttBytes_length,
      name, clientId, putU16]
    omega
  have width := encodedLength_mono _ _ (Nat.le_of_lt computed)
  simp only [List.length_append] at sizes
  omega

/-- The packet has the layout exactly if there is no will. -/
theorem layout_iff (lengths : Lengths option) :
    WritesLayout option ↔ option.lastWill = none := by
  constructor
  · rintro ⟨written, _⟩
    cases given : option.lastWill with
    | none => rfl
    | some w => exact absurd written (no_layout_of_will lengths given)
  · exact layout_of_no_will lengths

end Options

/-- A will without properties. -/
def willOptions : ConnectOptions where
  keepAlive := 60
  autoReconnect := false
  cleanSession := true
  clientId := "c"
  credentials := none
  lastWill := some
    { topic := "t", message := [9], qos := .AtMostOnce, retain := false, properties := none }
  keepAlive_lt := defaultKeepAlive_lt

theorem layout_without_will : WritesLayout { willOptions with lastWill := none } := by
  refine (layout_iff ?_).mpr rfl
  constructor <;> decide +kernel

/-- A zero stands between client identifier and will topic. -/
theorem property_length_in_v4 :
    new willOptions .V4 = .ok [0x10, 20, 0, 4, 77, 81, 84, 84, 4, 6, 0, 60, 0, 1, 99,
      0, 0, 1, 116, 0, 1, 9] ∧ ¬WritesLayout willOptions := by
  constructor
  · decide +kernel
  · rintro ⟨written, _⟩
    revert written
    decide +kernel

end Connect

end Codec
