import CoreSplitter.Core.Messages
import CoreSplitter.Protocol.Decode

/-! The cache: what the radio's frames write into it, and what it answers without asking the radio. -/

namespace CoreSplitter
open Bytes

namespace Core

/-! ### Answers -/

/-- A CONTACT frame as it goes out. -/
structure ContactFrame where
  bytes : Bytes
  len : bytes.length = contactFrameLen

/-- `as i32` of an `f64`, little-endian. -/
def coordinateBytes (v : Option Float) : Bytes :=
  toLe 4 ((v.getD 0.0 * 1000000.0).toInt32.toInt % 2 ^ 32).toNat

/-- Rebuild a CONTACT frame for rows cached before raw frames were kept: flags, path and lastmod go out
    as zero. -/
def synthesizeContactFrame (contact : CachedContact) : ContactFrame where
  bytes := 0x03 :: (field 32 contact.publicKey ++ UInt8.ofInt contact.contactType :: 0 :: 0 ::
    (List.replicate 64 0 ++ field 32 contact.name ++ toLe 4 ((contact.lastAdvert.getD 0) % 2 ^ 32).toNat ++
      coordinateBytes contact.lat ++ coordinateBytes contact.lon ++ List.replicate 4 0))
  len := by simp [contactFrameLen, coordinateBytes]

def contactFrame (contact : CachedContact) : ContactFrame :=
  match contact.raw with
  | some raw =>
    if h : raw.length ≥ contactFrameLen then
      ⟨(slice raw 0 contactFrameLen ⟨Nat.zero_le _, h⟩).set 0 0x03, by simp⟩
    else synthesizeContactFrame contact
  | none => synthesizeContactFrame contact

def ContactFrame.lastmod (f : ContactFrame) : Nat :=
  leNat (slice f.bytes 144 148 (by rw [f.len]; decide))

/-- The contacts a GET_CONTACTS with this filter gets: those modified after `since`. -/
def selectedFrames (contacts : List CachedContact) (since : Option Nat) : List ContactFrame :=
  (contacts.map contactFrame).filter fun f => since.all fun since => !decide (f.lastmod ≤ since)

/-- CONTACTS_START with the total count, the selected contacts, END_OF_CONTACTS with the most recent
    lastmod among them. -/
def contactsReply (contacts : List CachedContact) (since : Option Nat) : List Bytes :=
  let sent := selectedFrames contacts since
  let mostRecentLastmod := (sent.map (·.lastmod)).foldl max 0
  (0x02 :: toLe 4 contacts.length) :: (sent.map (·.bytes) ++ [0x04 :: toLe 4 mostRecentLastmod])

def respondContacts (c : Core) (cid : ClientId) (contacts : List CachedContact) (since : Option Nat) : Core :=
  c.sendAllToClient cid (contactsReply contacts since) .cached

def channelInfoFrame (channel : CachedChannel) : Bytes :=
  0x12 :: UInt8.ofInt channel.idx :: (field 32 channel.name ++ field 16 (channel.config.getD []))

def respondChannelInfo (c : Core) (cid : ClientId) (channel : CachedChannel) : Core :=
  c.sendToClient cid (channelInfoFrame channel) .cached

/-- `payload.get(1..5).map(u32::from_le_bytes)`: the optional filter of GET_CONTACTS. -/
def sinceOf (payload : Bytes) : Option Nat :=
  if h : 5 ≤ payload.length then some (leNat (slice payload 1 5 ⟨by omega, h⟩)) else none

def serveBlob (c : Core) (cid : ClientId) (blob : Option Bytes) : Bool × Core :=
  match blob with
  | some blob => (true, c.sendToClient cid blob .cached)
  | none => (false, c)

/-- `true` when the command was served without the radio. -/
def tryServeFromCache (c : Core) (env : Env) (cmdCode : UInt8) (cmd : ClientCommand) : Bool × Core :=
  match cmdCode with
  | 0x01 => c.serveBlob cmd.clientId c.selfInfoRaw
  | 0x16 => c.serveBlob cmd.clientId c.deviceInfoRaw
  | 0x14 => c.serveBlob cmd.clientId c.batteryInfoRaw
  | 0x04 =>
    if env.dbOk .getContacts && !c.db.getContacts.isEmpty then
      (true, c.respondContacts cmd.clientId c.db.getContacts (sinceOf cmd.payload))
    else (false, c)
  | 0x1F =>
    let requestedIdx : Int := match cmd.payload[1]? with
      | some idx => idx.toNat
      | none => -1
    if env.dbOk .getChannels then
      match c.db.getChannels.find? fun ch => ch.idx == requestedIdx with
      | some ch => (true, c.respondChannelInfo cmd.clientId ch)
      | none => (false, c)
    else (false, c)
  | _ => (false, c)

/-! ### What the radio's frames write -/

/-- `if let Some(decoded) = decode_response_payload(..)`. -/
def decodedOr (d : Option Decoded) (name : String) : Option DecodedValue := d.bind (·.get name)

def extractRadioIdentity (c : Core) (blob : Bytes) : Except Panic Core := do
  let c := if h : 36 ≤ blob.length then { c with radioPubkey := some ⟨slice blob 4 36 ⟨by omega, h⟩, by simp⟩ } else c
  match decodedOr (← decodeResponsePayload 0x05 blob) "name" with
  | some (.string name) => return { c with radioName := some name }
  | _ => return c

def extractMaxChannels (c : Core) (blob : Bytes) : Except Panic Core := do
  match decodedOr (← decodeResponsePayload 0x0D blob) "max_channels" with
  | some (.integer n) =>
    let max := UInt8.ofInt (min n 255)
    return if max > 0 then { c with maxChannels := max } else c
  | _ => return c

def textOf (d : Decoded) : Bytes :=
  match d.get "text" with
  | some (.string s) => s
  | _ => []

def timestampOf (env : Env) (d : Decoded) : Int :=
  match d.get "timestamp" with
  | some (.integer i) => i
  | _ => env.unix

/-- The row of a contact, from its CONTACT frame. -/
def contactOf (payload : Bytes) (h : contactFrameLen ≤ payload.length) : CachedContact :=
  have h : 148 ≤ payload.length := h
  let nameField := slice payload 100 132 (by omega)
  let lat := Float.ofInt (leInt (slice payload 136 140 (by omega))) / 1000000.0
  let lon := Float.ofInt (leInt (slice payload 140 144 (by omega))) / 1000000.0
  { publicKey := slice payload 1 33 (by omega)
    name := Utf8.lossy (untilNul nameField)
    contactType := payload[33].toNat
    lastAdvert := some (leNat (slice payload 132 136 (by omega)))
    lat := if lat != 0.0 then some lat else none
    lon := if lon != 0.0 then some lon else none
    raw := some (slice payload 0 contactFrameLen ⟨Nat.zero_le _, h⟩) }

/-- The row of a channel, from its CHANNEL_INFO frame. -/
def channelOf (payload : Bytes) (h : 50 ≤ payload.length) : CachedChannel where
  idx := payload[1].toNat
  name := Utf8.lossy (untilNul (slice payload 2 34 (by omega)))
  config := some (slice payload 34 50 (by omega))

/-- CONTACT_MSG_RECV_V3. -/
def contactMsgV3 (payload : Bytes) (h : 16 ≤ payload.length) : NewMessage where
  msgType := .contact
  fromKey := some (slice payload 4 10 (by omega))
  channelIdx := none
  text := Utf8.lossy (payload.drop (if payload[11] = 2 then 20 else 16))
  timestamp := leNat (slice payload 12 16 (by omega))
  frame := payload
  origin := none

/-- CHANNEL_MSG_RECV_V3. -/
def channelMsgV3 (payload : Bytes) (h : 11 ≤ payload.length) : NewMessage where
  msgType := .channel
  fromKey := none
  channelIdx := some payload[4].toNat
  text := Utf8.lossy (payload.drop 11)
  timestamp := leNat (slice payload 7 11 (by omega))
  frame := payload
  origin := none

/-- CONTACT_MSG_RECV, from its decoded fields. -/
def contactMsg (env : Env) (payload : Bytes) (d : Decoded) : NewMessage where
  msgType := .contact
  fromKey := if h : 7 ≤ payload.length then some (slice payload 1 7 ⟨by omega, h⟩) else none
  channelIdx := none
  text := textOf d
  timestamp := timestampOf env d
  frame := payload
  origin := none

/-- CHANNEL_MSG_RECV, from its decoded fields. -/
def channelMsg (env : Env) (payload : Bytes) (d : Decoded) : NewMessage where
  msgType := .channel
  fromKey := none
  channelIdx := (d.get "channel").map fun v => match v with
    | .integer i => i
    | _ => 0
  text := textOf d
  timestamp := timestampOf env d
  frame := payload
  origin := none

/-- `let _ = self.state.kv_set(..)`. -/
def kvSet (c : Core) (env : Env) (key : KvKey) (value : Bytes) : Core :=
  if env.dbOk (.kvSet key) then { c with db := c.db.kvSet key value } else c

def cacheContact (c : Core) (env : Env) (payload : Bytes) (h : contactFrameLen ≤ payload.length) : Core :=
  if env.dbOk .upsertContact then { c with db := c.db.upsertContact env.unix (contactOf payload h) } else c

def cacheChannel (c : Core) (env : Env) (payload : Bytes) (h : 50 ≤ payload.length) : Core :=
  if env.dbOk .upsertChannel then { c with db := c.db.upsertChannel (channelOf payload h) } else c

def cacheResponse (c : Core) (env : Env) (code : UInt8) (payload : Bytes) : Except Panic Core :=
  match code with
  | 0x03 => .ok (if h : payload.length ≥ contactFrameLen then c.cacheContact env payload h else c)
  | 0x05 => do
    let c ← (c.kvSet env .selfInfoRaw payload).extractRadioIdentity payload
    return { c with selfInfoRaw := some payload }
  | 0x0C => .ok { c.kvSet env .batteryInfoRaw payload with batteryInfoRaw := some payload }
  | 0x0D => do
    let c ← (c.kvSet env .deviceInfoRaw payload).extractMaxChannels payload
    return { c with deviceInfoRaw := some payload }
  | 0x07 => do
    match ← decodeResponsePayload code payload with
    | some decoded => return c.storeMessage env (contactMsg env payload decoded)
    | none => return c
  | 0x08 => do
    match ← decodeResponsePayload code payload with
    | some decoded => return c.storeMessage env (channelMsg env payload decoded)
    | none => return c
  | 0x10 => .ok (if h : payload.length ≥ 16 then c.storeMessage env (contactMsgV3 payload h) else c)
  | 0x11 => .ok (if h : payload.length ≥ 11 then c.storeMessage env (channelMsgV3 payload h) else c)
  | 0x12 => .ok (if h : payload.length ≥ 50 then c.cacheChannel env payload h else c)
  | _ => .ok c

end Core
end CoreSplitter
