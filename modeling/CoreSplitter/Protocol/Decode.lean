import CoreSplitter.Lib.Bytes
import CoreSplitter.Lib.Utf8

/-! Decoding of command and response payloads (`protocol/decode.rs`). The slices stand as the source has
    them: a wrong guard is an `Except.error`. -/

namespace CoreSplitter
open Bytes

inductive DecodedValue
  | string (s : Bytes)
  | integer (i : Int)
  | float (f : Float)
  | bool (b : Bool)

/-- The decoded fields; no arm inserts a name twice. -/
abbrev Decoded := List (String × DecodedValue)

namespace Decoded

def get (d : Decoded) (name : String) : Option DecodedValue := List.lookup name d

/-- `if map.is_empty() { None } else { Some(map) }`. -/
def result (d : Decoded) : Option Decoded := if d.isEmpty then none else some d

end Decoded

open DecodedValue

/-! ### Values at an offset -/

section
variable (p : Bytes) (i : Nat)

def byteAt : Except Panic DecodedValue := return integer (← tryIndex p i).toNat

def u16At : Except Panic DecodedValue := return integer (leNat (← tryRange p i (i + 2)))

def u32At : Except Panic DecodedValue := return integer (leNat (← tryRange p i (i + 4)))

/-- `f64::from(u32::from_le_bytes(..)) / unit`. -/
def u32ScaledAt (unit : Float) : Except Panic DecodedValue :=
  return float (Float.ofNat (leNat (← tryRange p i (i + 4))) / unit)

def i32ScaledAt (unit : Float) : Except Panic Float :=
  return Float.ofInt (leInt (← tryRange p i (i + 4))) / unit

/-- `payload[i] as i8 as f64 / 4.0`. -/
def snrAt : Except Panic DecodedValue := return float (Float.ofInt (leInt [← tryIndex p i]) / 4.0)

def hexAt (stop : Nat) : Except Panic DecodedValue := return string (hexEncode (← tryRange p i stop))

def lossyFrom : Except Panic DecodedValue := return string (Utf8.lossy (← tryFrom p i))

/-- The text from offset `i` on, empty when the payload ends there. -/
def lossyAfter : Except Panic DecodedValue := if p.length > i then lossyFrom p i else return string []

def trimmedAt (stop : Nat) : Except Panic DecodedValue :=
  return string (trimEndNul (Utf8.lossy (← tryRange p i stop)))

/-- `hex::encode` of the 32-byte key at offset `i`, cut to 12 digits. -/
def keyAt : Except Panic DecodedValue :=
  return string ((← tryRange (hexEncode (← tryRange p i (i + 32))) 0 12) ++ text "...")

end

section
variable {p : Bytes} {i stop : Nat}

@[simp] theorem byteAt_ok (h : i < p.length) : byteAt p i = .ok (integer p[i].toNat) := by
  rw [byteAt, tryIndex_ok h]
  rfl

@[simp] theorem u16At_ok (h : i + 2 ≤ p.length) :
    u16At p i = .ok (integer (leNat (slice p i (i + 2) ⟨by omega, h⟩))) := by
  rw [u16At, tryRange_ok (by omega) h]
  rfl

@[simp] theorem u32At_ok (h : i + 4 ≤ p.length) :
    u32At p i = .ok (integer (leNat (slice p i (i + 4) ⟨by omega, h⟩))) := by
  rw [u32At, tryRange_ok (by omega) h]
  rfl

theorem u32At_error (h : p.length < i + 4) : u32At p i = .error (.range i (i + 4) p.length) := by
  rw [u32At, tryRange_error h]
  rfl

@[simp] theorem u32ScaledAt_ok {unit : Float} (h : i + 4 ≤ p.length) :
    u32ScaledAt p i unit = .ok (float (Float.ofNat (leNat (slice p i (i + 4) ⟨by omega, h⟩)) / unit)) := by
  rw [u32ScaledAt, tryRange_ok (by omega) h]
  rfl

@[simp] theorem i32ScaledAt_ok {unit : Float} (h : i + 4 ≤ p.length) :
    i32ScaledAt p i unit = .ok (Float.ofInt (leInt (slice p i (i + 4) ⟨by omega, h⟩)) / unit) := by
  rw [i32ScaledAt, tryRange_ok (by omega) h]
  rfl

@[simp] theorem snrAt_ok (h : i < p.length) : snrAt p i = .ok (float (Float.ofInt (leInt [p[i]]) / 4.0)) := by
  rw [snrAt, tryIndex_ok h]
  rfl

@[simp] theorem hexAt_ok (h : i ≤ stop ∧ stop ≤ p.length) :
    hexAt p i stop = .ok (string (hexEncode (slice p i stop h))) := by
  rw [hexAt, tryRange_ok h.1 h.2]
  rfl

@[simp] theorem lossyFrom_ok (h : i ≤ p.length) : lossyFrom p i = .ok (string (Utf8.lossy (p.drop i))) := by
  rw [lossyFrom, tryFrom_ok h, slice, ← List.length_drop, List.take_length]
  rfl

@[simp] theorem lossyAfter_ok : lossyAfter p i = .ok (string (Utf8.lossy (p.drop i))) := by
  unfold lossyAfter
  split
  · exact lossyFrom_ok (by omega)
  · rw [List.drop_of_length_le (by omega)]
    rfl

@[simp] theorem trimmedAt_ok (h : i ≤ stop ∧ stop ≤ p.length) :
    trimmedAt p i stop = .ok (string (trimEndNul (Utf8.lossy (slice p i stop h)))) := by
  rw [trimmedAt, tryRange_ok h.1 h.2]
  rfl

@[simp] theorem keyAt_ok (h : i + 32 ≤ p.length) :
    keyAt p i = .ok (string ((hexEncode (slice p i (i + 32) ⟨by omega, h⟩)).take 12 ++ text "...")) := by
  have hhex : (hexEncode (slice p i (i + 32) ⟨by omega, h⟩)).length = 64 := by
    rw [hexEncode_length, slice_length]
    omega
  rw [keyAt, tryRange_ok (by omega) h, Except.bind_ok_eq, tryRange_ok (Nat.zero_le 12) (by rw [hhex]; decide)]
  rfl

end

/-- A coordinate is reported unless it is zero. -/
def coordinate (name : String) (v : Float) : Decoded := if v != 0.0 then [(name, float v)] else []

def nameOf (names : List String) (n : UInt8) : DecodedValue :=
  string (text (names.getD n.toNat "unknown"))

/-- The fields of an arm, where its guard holds. -/
def guarded (c : Prop) [Decidable c] (fields : Except Panic Decoded) : Except Panic Decoded :=
  if c then fields else .ok []

/-! ### Commands -/

def decodeCommandFields (code : UInt8) (p : Bytes) : Except Panic Decoded :=
  match code with
  | 0x01 => guarded (p.length ≥ 2) do
    return [("version", ← byteAt p 1), ("app", string (trimEndNul (Utf8.lossy (p.drop 8))))]
  | 0x02 => guarded (p.length ≥ 7) do
    let dst ← if p.length > 7 then hexAt p 7 (min 13 p.length) else pure (string [])
    return [("type", ← byteAt p 1), ("attempt", ← byteAt p 2), ("timestamp", ← u32At p 3), ("to", dst),
      ("text", ← lossyAfter p 13)]
  | 0x03 => guarded (p.length ≥ 7) do
    return [("channel", ← byteAt p 2), ("timestamp", ← u32At p 3), ("text", ← lossyAfter p 7)]
  | 0x04 => guarded (p.length > 1) do return [("lastmod", ← u32At p 1)]
  | 0x06 => guarded (p.length ≥ 5) do return [("time", ← u32At p 1)]
  | 0x08 => do return [("name", string (trimEndNul (Utf8.lossy (← tryFrom p 1))))]
  | 0x0B => guarded (p.length ≥ 11) do
    return [("freq_mhz", ← u32ScaledAt p 1 1000.0), ("bw_khz", ← u32ScaledAt p 5 1000.0), ("sf", ← byteAt p 9),
      ("cr", ← byteAt p 10)]
  | 0x0C => guarded (p.length ≥ 5) do return [("tx_power", ← u32At p 1)]
  | 0x0E => guarded (p.length ≥ 9) do
    return [("lat", float (← i32ScaledAt p 1 1000000.0)), ("lon", float (← i32ScaledAt p 5 1000000.0))]
  | 0x16 => .ok [("query", string (text "device_info"))]
  | 0x1A => guarded (p.length > 33) do
    let dst ← hexAt p 1 33
    let _pwd ← lossyFrom p 33
    return [("to", dst), ("password", string (text "***"))]
  | 0x1F => guarded (p.length > 1) do return [("channel_idx", ← byteAt p 1)]
  | 0x20 => guarded (p.length > 49) do
    return [("channel_idx", ← byteAt p 1), ("name", ← trimmedAt p 2 34), ("psk", ← hexAt p 34 50)]
  | 0x25 => guarded (p.length ≥ 5) do return [("pin", ← u32At p 1)]
  | 0x27 =>
    if p.length > 4 then do return [("target", ← hexAt p 4 (min 10 p.length))]
    else .ok [("target", string (text "self"))]
  | 0x34 => guarded (p.length > 2) do return [("target", ← hexAt p 2 (min 34 p.length))]
  | 0x3D => guarded (p.length ≥ 3) do return [("mode", ← byteAt p 2)]
  | 0x38 => guarded (p.length > 1) do
    return [("stats_type", nameOf ["core", "radio", "packets"] (← tryIndex p 1))]
  | _ => .ok []

def decodeCommandPayload (code : UInt8) (p : Bytes) : Except Panic (Option Decoded) :=
  if p.isEmpty then .ok none else do return (← decodeCommandFields code p).result

/-! ### Responses -/

/-- The optional tail of SELF_INFO: the name follows sf and cr where the frame has them. -/
def decodeSelfInfoTail (p : Bytes) : Except Panic Decoded := do
  let sfCr ← guarded (p.length > 57) do return [("sf", ← byteAt p 56), ("cr", ← byteAt p 57)]
  let nameOffset := if p.length > 57 then 58 else 56
  let name ← if p.length > nameOffset then pure (trimEndNul (Utf8.lossy (← tryFrom p nameOffset))) else pure []
  return ("name", string name) :: sfCr

def decodeResponseFields (code : UInt8) (p : Bytes) : Except Panic Decoded :=
  match code with
  | 0x00 => do
    let value ← guarded (p.length = 5) do return [("value", ← u32At p 1)]
    return ("status", string (text "OK")) :: value
  | 0x01 => do
    let error ← guarded (p.length > 1) do return [("error_code", ← byteAt p 1)]
    return ("status", string (text "ERROR")) :: error
  | 0x02 => guarded (p.length ≥ 5) do return [("contact_count", ← u32At p 1)]
  | 0x03 => guarded (p.length ≥ 148) do
    let pk ← keyAt p 1
    let contactType ← tryIndex p 33
    let _flags ← tryIndex p 34
    let pathLen ← byteAt p 35
    let tail ← tryFrom p 100
    let name ← tryRange tail 0 ((tail.findIdx? (· == 0)).getD 32)
    let lastAdvert ← u32At p 132
    let lat ← i32ScaledAt p 136 1000000.0
    let lon ← i32ScaledAt p 140 1000000.0
    return [("name", string (Utf8.lossy name)), ("public_key", pk),
      ("type", nameOf ["node", "repeater", "room"] contactType), ("path_len", pathLen),
      ("last_advert", lastAdvert)] ++ coordinate "lat" lat ++ coordinate "lon" lon
  | 0x04 => guarded (p.length ≥ 5) do return [("lastmod", ← u32At p 1)]
  | 0x05 => guarded (p.length ≥ 52) do
    let advType ← tryIndex p 1
    let txPower ← byteAt p 2
    let maxTxPower ← byteAt p 3
    let pk ← keyAt p 4
    let lat ← i32ScaledAt p 36 1000000.0
    let lon ← i32ScaledAt p 40 1000000.0
    let multiAcks ← byteAt p 44
    let advLocPolicy ← byteAt p 45
    let telemetryMode ← byteAt p 46
    let manualAddContacts ← byteAt p 47
    let freq ← u32ScaledAt p 48 1000.0
    let bw ← if p.length ≥ 56 then u32ScaledAt p 52 1000.0 else pure (float 0.0)
    let tail ← decodeSelfInfoTail p
    return tail ++ [("max_tx_power", maxTxPower), ("multi_acks", multiAcks), ("adv_loc_policy", advLocPolicy),
      ("telemetry_mode", telemetryMode), ("manual_add_contacts", manualAddContacts),
      ("type", nameOf ["node", "client", "repeater", "room"] advType), ("public_key", pk), ("tx_power", txPower),
      ("freq_mhz", freq), ("bw_khz", bw)] ++ coordinate "lat" lat ++ coordinate "lon" lon
  | 0x06 => guarded (p.length ≥ 9) do
    return [("msg_type", ← byteAt p 1), ("expected_ack", ← hexAt p 2 6), ("timeout_ms", ← u32At p 6)]
  | 0x07 => guarded (p.length ≥ 13) do
    return [("from", ← hexAt p 1 7), ("path_len", ← byteAt p 7), ("timestamp", ← u32At p 9),
      ("text", ← lossyFrom p 13), ("type", nameOf ["text", "command", "signed"] (← tryIndex p 8))]
  | 0x08 => guarded (p.length ≥ 9) do
    return [("channel", ← byteAt p 1), ("path_len", ← byteAt p 2), ("timestamp", ← u32At p 4),
      ("text", ← lossyFrom p 8), ("type", nameOf ["text", "command"] (← tryIndex p 3))]
  | 0x09 => guarded (p.length ≥ 5) do return [("time", ← u32At p 1)]
  | 0x0A => .ok [("messages_available", bool false)]
  | 0x0C => guarded (p.length ≥ 3) do
    let level ← u16At p 1
    let storage ← guarded (p.length ≥ 11) do return [("used_kb", ← u32At p 3), ("total_kb", ← u32At p 7)]
    return ("level_mv", level) :: storage
  | 0x0D => guarded (p.length > 1) do
    let fw ← byteAt p 1
    let limits ← guarded (p.length > 3) do
      return [("max_contacts", integer ((← tryIndex p 2).toNat * 2)), ("max_channels", ← byteAt p 3)]
    let blePin ← guarded (p.length ≥ 8) do return [("ble_pin", ← u32At p 4)]
    let fwBuild ← guarded (p.length ≥ 20) do return [("fw_build", ← trimmedAt p 8 20)]
    let model ← guarded (p.length ≥ 60) do return [("model", ← trimmedAt p 20 60)]
    let version ← guarded (p.length > 80) do return [("version", ← trimmedAt p 60 80)]
    let clientRepeat ← guarded (p.length > 81) do return [("client_repeat", ← byteAt p 80)]
    let pathHashMode ← guarded (p.length > 82) do return [("path_hash_mode", ← byteAt p 81)]
    return ("fw_version", fw) :: (limits ++ blePin ++ fwBuild ++ model ++ version ++ clientRepeat ++ pathHashMode)
  | 0x10 => guarded (p.length ≥ 13) do
    let snr ← snrAt p 1
    let sender ← hexAt p 4 10
    let pathLen ← tryIndex p 10
    let txtType ← tryIndex p 11
    let timestamp ← u32At p 12
    let txt ← lossyAfter p (if txtType = 2 then 20 else 16)
    return [("from", sender), ("snr", snr), ("path_len", integer (pathLen &&& 0x3F).toNat),
      ("timestamp", timestamp), ("text", txt), ("type", nameOf ["text", "command", "signed"] txtType)]
  | 0x11 => guarded (p.length ≥ 11) do
    let snr ← snrAt p 1
    let pathLen ← tryIndex p 5
    return [("channel", ← byteAt p 4), ("snr", snr), ("path_len", integer (pathLen &&& 0x3F).toNat),
      ("timestamp", ← u32At p 7), ("text", ← lossyAfter p 11), ("type", nameOf ["text", "command"] (← tryIndex p 6))]
  | 0x12 => guarded (p.length > 2) do
    let idx ← byteAt p 1
    let nameField ← tryRange p 2 34
    let name ← tryRange p 2 (2 + (nameField.findIdx? (· == 0)).getD 32)
    return [("channel_idx", idx), ("name", string (Utf8.lossy name))]
  | 0x82 =>
    if p.length ≥ 5 then do return [("ack_code", ← hexAt p 1 5)] else .ok [("ack", bool true)]
  | 0x83 => .ok [("messages_waiting", bool true)]
  | 0x85 => .ok [("login", string (text "success"))]
  | 0x86 => .ok [("login", string (text "failed"))]
  | _ => .ok []

def decodeResponsePayload (code : UInt8) (p : Bytes) : Except Panic (Option Decoded) :=
  if p.isEmpty then .ok none else do return (← decodeResponseFields code p).result

/-- What a guard refuses is not decoded. -/
theorem decodeResponsePayload_guarded {code : UInt8} {p : Bytes} {guard : Prop} [Decidable guard]
    {fields : Except Panic Decoded} {d : Decoded} (hfields : decodeResponseFields code p = guarded guard fields)
    (h : decodeResponsePayload code p = .ok (some d)) :
    guard := by
  unfold decodeResponsePayload at h
  split at h
  · cases h
  · by_contra hno
    rw [hfields, guarded, if_neg hno] at h
    cases h

end CoreSplitter
