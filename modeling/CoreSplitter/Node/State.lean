import Mathlib.Data.List.Sort
import CoreSplitter.Lib.Bytes
import CoreSplitter.Lib.Table

/-! The SQLite database (`node/state.rs`). Every call may fail; a `NodeState` function here is the call that
    succeeds, and the caller decides between it and the error by `Env.dbOk`. -/

namespace CoreSplitter
open Bytes

/-- (local port, app name) of a client. -/
abbrev Identity := UInt16 × Bytes

abbrev MessageId := Int

structure CachedContact where
  publicKey : Bytes
  name : Bytes
  contactType : Int
  lastAdvert : Option Int
  lat : Option Float
  lon : Option Float
  /-- The CONTACT frame as the radio sent it; none in rows of older versions. -/
  raw : Option Bytes

/-- A row of `contacts`, under its public key. -/
structure ContactRow where
  contact : CachedContact
  seenAt : Option Int

structure CachedChannel where
  idx : Int
  name : Bytes
  config : Option Bytes
deriving DecidableEq, Repr

inductive MsgType
  | contact
  | channel
deriving DecidableEq, Repr

/-- A message to store: decoded fields plus the frame clients saw. -/
structure NewMessage where
  msgType : MsgType
  fromKey : Option Bytes
  channelIdx : Option Int
  text : Bytes
  timestamp : Int
  frame : Bytes
  origin : Option Identity
deriving DecidableEq, Repr

/-- A row of `messages`; older versions left the last four columns NULL. -/
structure MessageRow where
  id : MessageId
  msgType : MsgType
  fromKey : Option Bytes
  channelIdx : Option Int
  text : Bytes
  timestamp : Int
  receivedAt : Option Int
  frame : Option Bytes
  originPort : Option UInt16
  originApp : Option Bytes
deriving DecidableEq, Repr

/-- Whom a message came from, when it was sent by a client. -/
def MessageRow.origin (m : MessageRow) : Option Identity :=
  match m.originPort, m.originApp with
  | some port, some app => some (port, app)
  | _, _ => none

/-- A row of `clients`, under its identity. -/
structure ClientRow where
  lastSeenId : MessageId
  lastConnectedAt : Int
deriving DecidableEq, Repr

inductive KvKey
  | selfInfoRaw
  | deviceInfoRaw
  | batteryInfoRaw
  | contactsSyncedAt
deriving DecidableEq, Repr

/-- What a client connecting for the first time gets replayed. -/
inductive Backlog
  | off
  | messages (n : Nat)
  | seconds (secs : Int)
deriving DecidableEq, Repr

/-- Retention periods in days; 0 disables purging for that table. -/
structure Retention where
  messagesDays : Nat
  rawRxDays : Nat
  contactsDays : Nat
  clientsDays : Nat
deriving DecidableEq, Repr

/-- The database. `messages` stands in ascending order of id, and `messageSeq` is the last id that
    AUTOINCREMENT gave out, which a purge does not take back. -/
structure NodeState where
  contacts : Table Bytes ContactRow
  channels : Table Int CachedChannel
  messages : List MessageRow
  messageSeq : MessageId
  clients : Table Identity ClientRow
  kv : Table KvKey Bytes
  rawRx : List (Int × UInt8 × Bytes)

namespace NodeState
variable (db : NodeState)

def empty : NodeState := ⟨∅, ∅, [], 0, ∅, ∅, []⟩

/-! ### Contacts and channels -/

def upsertContact (now : Int) (c : CachedContact) : NodeState :=
  { db with contacts := db.contacts.insert c.publicKey ⟨c, some now⟩ }

/-- `ORDER BY name`; SQLite leaves the order of equal names open. -/
def getContacts : List CachedContact :=
  (db.contacts.rows.map fun r => r.2.contact).insertionSort fun a b => a.name ≤ b.name

def upsertChannel (c : CachedChannel) : NodeState := { db with channels := db.channels.insert c.idx c }

def deleteContact (publicKey : Bytes) : NodeState := { db with contacts := db.contacts.erase publicKey }

def deleteChannel (idx : Int) : NodeState := { db with channels := db.channels.erase idx }

/-- `ORDER BY idx`. -/
def getChannels : List CachedChannel :=
  (db.channels.rows.map fun r => r.2).insertionSort fun a b => a.idx ≤ b.idx

/-! ### Messages -/

/-- The row that `insert_message` adds. -/
def newRow (now : Int) (msg : NewMessage) : MessageRow where
  id := db.messageSeq + 1
  msgType := msg.msgType
  fromKey := msg.fromKey
  channelIdx := msg.channelIdx
  text := msg.text
  timestamp := msg.timestamp
  receivedAt := some now
  frame := some msg.frame
  originPort := msg.origin.map (·.1)
  originApp := msg.origin.map (·.2)

variable {db} in
theorem newRow_origin {now : Int} {msg : NewMessage} : (db.newRow now msg).origin = msg.origin := by
  unfold newRow MessageRow.origin
  cases msg.origin <;> rfl

def insertMessage (now : Int) (msg : NewMessage) : NodeState :=
  { db with messages := db.messages ++ [db.newRow now msg], messageSeq := db.messageSeq + 1 }

/-- Highest message id stored so far (0 when there are none). -/
def messageHead : MessageId := (db.messages.map (·.id)).foldl max 0

/-- `REPLAYABLE_TO`: it has a stored frame and wasn't sent by that same client. A comparison with NULL
    does not hold. -/
def replayableTo (who : Identity) (m : MessageRow) : Bool :=
  m.frame.isSome &&
    (m.originPort.isNone || m.originPort.any (· != who.1) || m.originApp.any (· != who.2))

/-- Ids of messages above `after` to replay to a client, oldest first. -/
def messageIdsAfter (after : MessageId) (who : Identity) : List MessageId :=
  (db.messages.filter fun m => decide (m.id > after) && replayableTo who m).map (·.id)

/-- Ids of the replayable messages a client seen for the first time gets, oldest first. -/
def backlogMessageIds (now : Int) (backlog : Backlog) (who : Identity) : List MessageId :=
  match backlog with
  | .off => []
  | .messages n =>
    let ids := (db.messages.filter (replayableTo who)).map (·.id)
    ids.drop (ids.length - n)
  | .seconds secs =>
    (db.messages.filter fun m => m.receivedAt.any (fun t => decide (t ≥ now - secs)) && replayableTo who m).map (·.id)

/-- The stored frame of a message, if it still exists. -/
def messageFrame (id : MessageId) : Option Bytes :=
  (db.messages.find? fun m => m.id == id && m.frame.isSome).bind (·.frame)

/-! ### Clients -/

/-- Last message id seen by a client, `none` if it never connected. -/
def clientCursor (who : Identity) : Option MessageId := (db.clients.lookup who).map (·.lastSeenId)

/-- The row after `advance_client_cursor`: it never goes backwards. -/
def advancedRow (now : Int) (seenId : MessageId) : Option ClientRow → ClientRow
  | some row => ⟨max row.lastSeenId seenId, now⟩
  | none => ⟨seenId, now⟩

def advanceClientCursor (now : Int) (who : Identity) (seenId : MessageId) : NodeState :=
  { db with clients := db.clients.insert who (advancedRow now seenId (db.clients.lookup who)) }

/-! ### Key-value store, raw frames -/

def kvSet (key : KvKey) (value : Bytes) : NodeState := { db with kv := db.kv.insert key value }

def kvGet (key : KvKey) : Option Bytes := db.kv.lookup key

def insertRawRx (now : Int) (code : UInt8) (payload : Bytes) : NodeState :=
  { db with rawRx := db.rawRx ++ [(now, code, payload)] }

/-- `i64::to_le_bytes`. -/
def i64ToLe (n : Int) : Bytes := toLe 8 (n % 2 ^ 64).toNat

theorem leInt_i64ToLe {n : Int} (hmin : -2 ^ 63 ≤ n) (hmax : n < 2 ^ 63) : leInt (i64ToLe n) = n := by
  have hread : leNat (i64ToLe n) = (n % 2 ^ 64).toNat := leNat_toLe (by omega)
  have hlen : (i64ToLe n).length = 8 := toLe_length
  simp only [leInt, hread, hlen]
  split <;> omega

def setContactsSyncedAt (startedAt : Int) : NodeState := db.kvSet .contactsSyncedAt (i64ToLe startedAt)

def contactsSyncedAt : Option Int :=
  (db.kvGet .contactsSyncedAt).bind fun b => if b.length = 8 then some (leInt b) else none

variable {db} in
theorem contactsSyncedAt_set {n : Int} (hmin : -2 ^ 63 ≤ n) (hmax : n < 2 ^ 63) :
    (db.setContactsSyncedAt n).contactsSyncedAt = some n := by
  have hlen : (i64ToLe n).length = 8 := toLe_length
  simp [contactsSyncedAt, setContactsSyncedAt, kvGet, kvSet, hlen, leInt_i64ToLe hmin hmax]

/-! ### Maintenance -/

def cutoff (now : Int) (days : Nat) : Int := now - days * 86400

def purgeMessages (now : Int) (days : Nat) : NodeState :=
  { db with messages := db.messages.filter fun m => !decide (m.receivedAt.getD m.timestamp < cutoff now days) }

def purgeRawRx (now : Int) (days : Nat) : NodeState :=
  { db with rawRx := db.rawRx.filter fun r => !decide (r.1 < cutoff now days) }

/-- Contacts missing from the last full sync *and* unseen for the retention period go. -/
def contactThreshold (now : Int) (days : Nat) (syncedAt : Int) : Int := min syncedAt (cutoff now days)

def purgeContacts (threshold : Int) : NodeState :=
  { db with contacts := db.contacts.retain fun _ r => !decide (r.seenAt.getD 0 < threshold) }

def purgeClients (now : Int) (days : Nat) : NodeState :=
  { db with clients := db.clients.retain fun _ r => !decide (r.lastConnectedAt < cutoff now days) }

end NodeState
end CoreSplitter
