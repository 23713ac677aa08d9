import CoreSplitter.Node.State

/-! The tables of the SQLite database as any version of the proxy left them, what `NodeState::open` makes of them,
    and the state that the queries then read. -/

namespace CoreSplitter
open Bytes

/-- A value in a row. -/
inductive Value
  | null
  | integer (n : Int)
  | real (x : Float)
  | text (s : Bytes)
  | blob (b : Bytes)

inductive TableName
  | contacts
  | channels
  | messages
  | kvStore
  | rawRx
  | clients
deriving DecidableEq

def TableName.all : List TableName := [contacts, channels, messages, kvStore, rawRx, clients]

structure Column where
  name : String
  decl : String
deriving DecidableEq

/-- SQLite does not tell column names apart by case. -/
def Column.called (c : Column) (name : String) : Bool := c.name.toLower == name.toLower

/-- A table. A row that was stored before a column was added ends before it, and is NULL there. -/
structure Relation where
  columns : List Column
  rows : List (List Value)
  /-- The last id that AUTOINCREMENT gave out. -/
  seq : Int
  fits : ∀ row ∈ rows, row.length ≤ columns.length

namespace Relation
variable (r : Relation)

/-- What `pragma_table_info` tells. -/
def lists (name : String) : Bool := r.columns.any (·.name == name)

def has (name : String) : Bool := r.columns.any (·.called name)

/-- The value of a row in the column. -/
def cell (row : List Value) (name : String) : Value := row.getD (r.columns.findIdx (·.called name)) .null

def create (columns : List Column) : Relation := ⟨columns, [], 0, nofun⟩

def addColumn (c : Column) : Relation where
  columns := r.columns ++ [c]
  rows := r.rows
  seq := r.seq
  fits row hrow := by
    rw [List.length_append]
    exact Nat.le_add_right_of_le (r.fits row hrow)

def retain (p : List Value → Bool) : Relation where
  columns := r.columns
  rows := r.rows.filter p
  seq := r.seq
  fits row hrow := r.fits row (List.mem_filter.mp hrow).1

/-- The rows, with these columns. -/
def select (names : List String) : List (List Value) := r.rows.map fun row => names.map (r.cell row)

end Relation

inductive AutoVacuum
  | none
  | full
  | incremental
deriving DecidableEq

structure Database where
  tables : TableName → Option Relation
  autoVacuum : AutoVacuum

/-! ### Opening -/

/-- What `open` and `migrate` have executed, one after the other. -/
inductive Statement
  | connect
  | createTable (t : TableName) (columns : List Column)
  | deleteObsolete
  | addColumnIfMissing (t : TableName) (column decl : String)
  | convert

/-- The keys of `kv_store` that prior versions used. -/
def obsoleteKeys : List String := ["self_info", "device_info", "battery_info", "identity.seed", "identity.pk"]

def Value.obsolete : Value → Bool
  | text s => obsoleteKeys.any (Bytes.text · == s)
  | _ => false

namespace Database
variable (db : Database)

def set (t : TableName) (r : Relation) : Database := { db with tables := Function.update db.tables t (some r) }

/-- The connection asks for incremental auto-vacuum: it can be had at once, unless there are tables without any. -/
def connect : Database :=
  if db.autoVacuum = .none ∧ ∃ t ∈ TableName.all, (db.tables t).isSome = true then db
  else { db with autoVacuum := .incremental }

/-- `CREATE TABLE IF NOT EXISTS`. -/
def createTable (t : TableName) (columns : List Column) : Database :=
  match db.tables t with
  | some _ => db
  | none => db.set t (.create columns)

/-- Drop obsolete kv_store entries from prior versions. -/
def deleteObsolete : Option Database := do
  let r ← db.tables .kvStore
  if r.has "key" then return db.set .kvStore (r.retain fun row => !(r.cell row "key").obsolete) else none

/-- SQLite has no ADD COLUMN IF NOT EXISTS; check table_info first. -/
def addColumnIfMissing (t : TableName) (column decl : String) : Option Database := do
  let r ← db.tables t
  if r.lists column then return db
  -- "duplicate column name"
  if r.has column then none
  return db.set t (r.addColumn ⟨column, decl⟩)

/-- `VACUUM`, which has the auto-vacuum take effect that the connection asked for. -/
def convert : Database := if db.autoVacuum = .incremental then db else { db with autoVacuum := .incremental }

def execute : Statement → Option Database
  | .connect => some db.connect
  | .createTable t columns => some (db.createTable t columns)
  | .deleteObsolete => db.deleteObsolete
  | .addColumnIfMissing t column decl => db.addColumnIfMissing t column decl
  | .convert => some db.convert

end Database

/-- The columns of a new table. -/
def TableName.columns : TableName → List Column
  | contacts => [⟨"public_key", "BLOB PRIMARY KEY"⟩, ⟨"name", "TEXT NOT NULL"⟩, ⟨"contact_type", "INTEGER NOT NULL"⟩,
      ⟨"last_advert", "INTEGER"⟩, ⟨"lat", "REAL"⟩, ⟨"lon", "REAL"⟩]
  | channels => [⟨"idx", "INTEGER PRIMARY KEY"⟩, ⟨"name", "TEXT NOT NULL"⟩, ⟨"config", "BLOB"⟩]
  | messages => [⟨"id", "INTEGER PRIMARY KEY AUTOINCREMENT"⟩, ⟨"msg_type", "TEXT NOT NULL"⟩, ⟨"from_key", "BLOB"⟩,
      ⟨"channel_idx", "INTEGER"⟩, ⟨"text", "TEXT NOT NULL"⟩, ⟨"timestamp", "INTEGER NOT NULL"⟩]
  | kvStore => [⟨"key", "TEXT PRIMARY KEY"⟩, ⟨"value", "BLOB NOT NULL"⟩]
  | rawRx => [⟨"id", "INTEGER PRIMARY KEY AUTOINCREMENT"⟩, ⟨"ts", "INTEGER NOT NULL"⟩, ⟨"code", "INTEGER NOT NULL"⟩,
      ⟨"payload", "BLOB NOT NULL"⟩]
  | clients => [⟨"port", "INTEGER NOT NULL"⟩, ⟨"app_name", "TEXT NOT NULL"⟩, ⟨"last_seen_id", "INTEGER NOT NULL"⟩,
      ⟨"last_connected_at", "INTEGER NOT NULL"⟩]

/-- The columns that were added to tables of prior versions. -/
def addedColumns : List (TableName × String × String) :=
  [(.contacts, "raw", "BLOB"), (.contacts, "seen_at", "INTEGER"), (.messages, "received_at", "INTEGER"),
    (.messages, "frame", "BLOB"), (.messages, "origin_port", "INTEGER"), (.messages, "origin_app", "TEXT")]

/-- The statements of `open` and `migrate`. -/
def migration : List Statement :=
  .connect :: TableName.all.map (fun t => .createTable t t.columns) ++
    .deleteObsolete :: addedColumns.map (fun (t, column, decl) => .addColumnIfMissing t column decl) ++ [.convert]

/-- `NodeState::open`. -/
def Database.openState (db : Database) : Option Database := migration.foldlM Database.execute db

/-! ### Reading -/

namespace Value

def integer? : Value → Option Int
  | integer n => some n
  | _ => Option.none

def real? : Value → Option Float
  | real x => some x
  | _ => Option.none

def text? : Value → Option Bytes
  | text s => some s
  | _ => Option.none

def blob? : Value → Option Bytes
  | blob b => some b
  | _ => Option.none

/-- A value that may be NULL. -/
def nullable {α : Type} (v : Value) (f : Value → Option α) : Option (Option α) :=
  match v with
  | null => some Option.none
  | v => (f v).map some

def port? (v : Value) : Option UInt16 :=
  v.integer?.bind fun n => if 0 ≤ n ∧ n < 65536 then some (UInt16.ofNat n.toNat) else Option.none

def byte? (v : Value) : Option UInt8 :=
  v.integer?.bind fun n => if 0 ≤ n ∧ n < 256 then some (UInt8.ofNat n.toNat) else Option.none

def msgType? : Value → Option MsgType
  | text s =>
    if s = Bytes.text "contact" then some .contact else if s = Bytes.text "channel" then some .channel else Option.none
  | _ => Option.none

end Value

/-- The columns that the queries name. -/
def TableName.read : TableName → List String
  | contacts => ["public_key", "name", "contact_type", "last_advert", "lat", "lon", "raw", "seen_at"]
  | channels => ["idx", "name", "config"]
  | messages => ["id", "msg_type", "from_key", "channel_idx", "text", "timestamp", "received_at", "frame",
      "origin_port", "origin_app"]
  | kvStore => ["key", "value"]
  | rawRx => ["ts", "code", "payload"]
  | clients => ["port", "app_name", "last_seen_id", "last_connected_at"]

def KvKey.name : KvKey → String
  | selfInfoRaw => "self_info_raw"
  | deviceInfoRaw => "device_info_raw"
  | batteryInfoRaw => "battery_info_raw"
  | contactsSyncedAt => "contacts_synced_at"

namespace NodeState

def contactRow : List Value → Option (Bytes × ContactRow)
  | [publicKey, name, contactType, lastAdvert, lat, lon, raw, seenAt] => do
    let publicKey ← publicKey.blob?
    let contact : CachedContact :=
      ⟨publicKey, ← name.text?, ← contactType.integer?, ← lastAdvert.nullable Value.integer?,
        ← lat.nullable Value.real?, ← lon.nullable Value.real?, ← raw.nullable Value.blob?⟩
    return (publicKey, ⟨contact, ← seenAt.nullable Value.integer?⟩)
  | _ => none

def channelRow : List Value → Option (Int × CachedChannel)
  | [idx, name, config] => do
    let idx ← idx.integer?
    return (idx, ⟨idx, ← name.text?, ← config.nullable Value.blob?⟩)
  | _ => none

def messageRow : List Value → Option MessageRow
  | [id, msgType, fromKey, channelIdx, text, timestamp, receivedAt, frame, originPort, originApp] => do
    return ⟨← id.integer?, ← msgType.msgType?, ← fromKey.nullable Value.blob?, ← channelIdx.nullable Value.integer?,
      ← text.text?, ← timestamp.integer?, ← receivedAt.nullable Value.integer?, ← frame.nullable Value.blob?,
      ← originPort.nullable Value.port?, ← originApp.nullable Value.text?⟩
  | _ => none

/-- No query asks for other keys. -/
def kvRow : List Value → Option (KvKey × Bytes)
  | [.text key, .blob value] =>
    ([KvKey.selfInfoRaw, .deviceInfoRaw, .batteryInfoRaw, .contactsSyncedAt].find? (Bytes.text ·.name == key)).map
      (·, value)
  | _ => none

def rawRxRow : List Value → Option (Int × UInt8 × Bytes)
  | [ts, code, payload] => do return (← ts.integer?, ← code.byte?, ← payload.blob?)
  | _ => none

def clientRow : List Value → Option (Identity × ClientRow)
  | [port, appName, lastSeenId, lastConnectedAt] => do
    return ((← port.port?, ← appName.text?), ⟨← lastSeenId.integer?, ← lastConnectedAt.integer?⟩)
  | _ => none

def table {κ ν : Type} [DecidableEq κ] (rows : List (κ × ν)) : Table κ ν := rows.foldl (fun t r => t.insert r.1 r.2) ∅

/-- The state of which these are the rows. -/
def ofRows (rows : TableName → List (List Value)) (messageSeq : MessageId) : Option NodeState := do
  return {
    contacts := table (← (rows .contacts).mapM contactRow)
    channels := table (← (rows .channels).mapM channelRow)
    messages := ← (rows .messages).mapM messageRow
    messageSeq := messageSeq
    clients := table (← (rows .clients).mapM clientRow)
    kv := table ((rows .kvStore).filterMap kvRow)
    rawRx := ← (rows .rawRx).mapM rawRxRow }

end NodeState

namespace Database
variable (db : Database)

/-- The rows of a table, NULL in the columns that it lacks. -/
def rows (t : TableName) : List (List Value) := ((db.tables t).map (·.select t.read)).getD []

def messageSeq : MessageId := ((db.tables .messages).map (·.seq)).getD 0

/-- The queries find their columns. -/
def Complete : Prop := ∀ t, ∃ r, db.tables t = some r ∧ ∀ name ∈ t.read, r.has name = true

/-- What the database holds, whichever version it is of. -/
def holds : Option NodeState := NodeState.ofRows db.rows db.messageSeq

end Database
end CoreSplitter
