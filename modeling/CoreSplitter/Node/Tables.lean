import CoreSplitter.Node.Schema

/-! The statements of `NodeState`, as SQLite executes them on the tables. `Node.State` says what they come to. -/

namespace CoreSplitter
open Bytes

namespace Value

/-- What is bound for an `Option`. -/
def ofOption {α : Type} (f : α → Value) : Option α → Value
  | some x => f x
  | none => null

def ofPort (port : UInt16) : Value := integer port.toNat

def ofMsgType : MsgType → Value
  | .contact => text (Bytes.text "contact")
  | .channel => text (Bytes.text "channel")

def isNull : Value → Bool
  | null => true
  | _ => false

/-- `=` of integers, of texts and of blobs; a comparison with NULL does not hold. -/
def equals : Value → Value → Bool
  | integer a, integer b => a == b
  | text a, text b => a == b
  | blob a, blob b => a == b
  | _, _ => false

/-- `!=`, which does not hold with NULL either. -/
def differs (v w : Value) : Bool := !v.isNull && !w.isNull && !v.equals w

/-- `v < n` -/
def below (v : Value) (n : Int) : Bool := v.integer?.any (decide <| · < n)

def coalesce : Value → Value → Value
  | null, w => w
  | v, _ => v

end Value

/-- The value that is given for a column. -/
def valueOf (names : List String) (values : List Value) (name : String) : Value :=
  (((names.zip values).find? fun v => v.1.toLower == name.toLower).map (·.2)).getD .null

namespace Relation
variable (r : Relation)

/-- A new row: NULL in the columns for which nothing is given. -/
def layOut (names : List String) (values : List Value) : List Value :=
  r.columns.map fun c => valueOf names values c.name

/-- `INSERT INTO`. -/
def insert (names : List String) (values : List Value) : Relation where
  columns := r.columns
  rows := r.rows ++ [r.layOut names values]
  seq := r.seq
  fits row hrow := by
    rcases List.mem_append.mp hrow with hrow | hrow
    · exact r.fits row hrow
    · rw [List.mem_singleton.mp hrow, layOut, List.length_map]

/-- `INSERT INTO` a table whose `id` is `AUTOINCREMENT`. -/
def insertNext (names : List String) (values : List Value) : Relation :=
  { r.insert ("id" :: names) (.integer (r.seq + 1) :: values) with seq := r.seq + 1 }

/-- `INSERT OR REPLACE INTO`, where `key` is the primary key. -/
def replace (key : String) (names : List String) (values : List Value) : Relation :=
  (r.retain fun row => !(r.cell row key).equals (valueOf names values key)).insert names values

/-- `UPDATE`: the rows that satisfy `p` get new values in some columns. -/
def update (p : List Value → Bool) (names : List String) (values : List Value → List Value) : Relation where
  columns := r.columns
  rows := r.rows.map fun row =>
    if p row then
      r.columns.map fun c => if names.any c.called then valueOf names (values row) c.name else r.cell row c.name
    else row
  seq := r.seq
  fits row hrow := by
    obtain ⟨old, hold, rfl⟩ := List.mem_map.mp hrow
    split
    · rw [List.length_map]
    · exact r.fits old hold

end Relation

namespace Database
variable (db : Database)

/-- A statement fails if the table is missing, or one of the columns that it names. -/
def statement (t : TableName) (names : List String) (f : Relation → Relation) : Option Database := do
  let r ← db.tables t
  if names.all r.has then return db.set t (f r) else none

/-- A query. -/
def query {α : Type} (t : TableName) (names : List String) (f : Relation → α) : Option α := do
  let r ← db.tables t
  if names.all r.has then return f r else none

/-! ### Contacts and channels -/

def upsertContact (now : Int) (c : CachedContact) : Option Database :=
  let names := ["public_key", "name", "contact_type", "last_advert", "lat", "lon", "raw", "seen_at"]
  db.statement .contacts names (·.replace "public_key" names
    [.blob c.publicKey, .text c.name, .integer c.contactType, .ofOption .integer c.lastAdvert, .ofOption .real c.lat,
      .ofOption .real c.lon, .ofOption .blob c.raw, .integer now])

def deleteContact (publicKey : Bytes) : Option Database :=
  db.statement .contacts ["public_key"] fun r => r.retain fun row => !(r.cell row "public_key").equals (.blob publicKey)

def upsertChannel (c : CachedChannel) : Option Database :=
  let names := ["idx", "name", "config"]
  db.statement .channels names (·.replace "idx" names [.integer c.idx, .text c.name, .ofOption .blob c.config])

def deleteChannel (idx : Int) : Option Database :=
  db.statement .channels ["idx"] fun r => r.retain fun row => !(r.cell row "idx").equals (.integer idx)

/-- `ORDER BY name`; SQLite leaves the order of equal names open. -/
def getContacts : Option (List CachedContact) := do
  let rows ← db.query .contacts TableName.contacts.read (·.select TableName.contacts.read)
  return ((← rows.mapM NodeState.contactRow).map (·.2.contact)).insertionSort fun a b => a.name ≤ b.name

/-- `ORDER BY idx`. -/
def getChannels : Option (List CachedChannel) := do
  let rows ← db.query .channels TableName.channels.read (·.select TableName.channels.read)
  return ((← rows.mapM NodeState.channelRow).map (·.2)).insertionSort fun a b => a.idx ≤ b.idx

/-! ### Messages -/

def insertMessage (now : Int) (msg : NewMessage) : Option Database :=
  let names := ["msg_type", "from_key", "channel_idx", "text", "timestamp", "received_at", "frame",
    "origin_port", "origin_app"]
  db.statement .messages names (·.insertNext names
    [.ofMsgType msg.msgType, .ofOption .blob msg.fromKey, .ofOption .integer msg.channelIdx, .text msg.text,
      .integer msg.timestamp, .integer now, .blob msg.frame, .ofOption .ofPort (msg.origin.map (·.1)),
      .ofOption .text (msg.origin.map (·.2))])

/-- `SELECT COALESCE(MAX(id), 0) FROM messages`. -/
def messageHead : Option MessageId :=
  db.query .messages ["id"] fun r => ((r.rows.filterMap fun row => (r.cell row "id").integer?).max?).getD 0

/-- `REPLAYABLE_TO`: of an OR with NULL that is true one operand is true. -/
def replayableTo (who : Identity) (r : Relation) (row : List Value) : Bool :=
  !(r.cell row "frame").isNull &&
    ((r.cell row "origin_port").isNull || (r.cell row "origin_port").differs (.ofPort who.1) ||
      (r.cell row "origin_app").differs (.text who.2))

/-- `ORDER BY id`. -/
def idsOf (r : Relation) (rows : List (List Value)) : List MessageId :=
  (rows.filterMap fun row => (r.cell row "id").integer?).insertionSort (· ≤ ·)

def messageIdsAfter (after : MessageId) (who : Identity) : Option (List MessageId) :=
  db.query .messages ["id", "frame", "origin_port", "origin_app"] fun r =>
    idsOf r (r.rows.filter fun row => (r.cell row "id").integer?.any (decide <| · > after) && replayableTo who r row)

def backlogMessageIds (now : Int) (backlog : Backlog) (who : Identity) : Option (List MessageId) :=
  match backlog with
  | .off => some []
  | .messages n => db.query .messages ["id", "frame", "origin_port", "origin_app"] fun r =>
      -- ORDER BY id DESC LIMIT n, and ORDER BY id again
      (((idsOf r (r.rows.filter (replayableTo who r))).reverse.take n).insertionSort (· ≤ ·))
  | .seconds secs => db.query .messages ["id", "received_at", "frame", "origin_port", "origin_app"] fun r =>
      idsOf r (r.rows.filter fun row => (r.cell row "received_at").integer?.any (decide <| · ≥ now - secs) &&
        replayableTo who r row)

def messageFrame (id : MessageId) : Option (Option Bytes) :=
  db.query .messages ["id", "frame"] fun r =>
    (r.rows.find? fun row => (r.cell row "id").equals (.integer id) && !(r.cell row "frame").isNull).bind fun row =>
      (r.cell row "frame").blob?

/-! ### Clients -/

/-- The row of a client. -/
def isClient (who : Identity) (r : Relation) (row : List Value) : Bool :=
  (r.cell row "port").equals (.ofPort who.1) && (r.cell row "app_name").equals (.text who.2)

def clientCursor (who : Identity) : Option (Option MessageId) :=
  db.query .clients ["port", "app_name", "last_seen_id"] fun r =>
    (r.rows.find? (isClient who r)).bind fun row => (r.cell row "last_seen_id").integer?

/-- `INSERT INTO ... ON CONFLICT (port, app_name) DO UPDATE SET ...`. -/
def advanceClientCursor (now : Int) (who : Identity) (seenId : MessageId) : Option Database :=
  let names := ["port", "app_name", "last_seen_id", "last_connected_at"]
  db.statement .clients names fun r =>
    if r.rows.any (isClient who r) then
      r.update (isClient who r) ["last_seen_id", "last_connected_at"]
        fun row => [.integer (((r.cell row "last_seen_id").integer?.map (max · seenId)).getD seenId), .integer now]
    else r.insert names [.ofPort who.1, .text who.2, .integer seenId, .integer now]

/-! ### Key-value store, raw frames -/

def kvSet (key : KvKey) (value : Bytes) : Option Database :=
  db.statement .kvStore ["key", "value"] (·.replace "key" ["key", "value"] [.text (text key.name), .blob value])

def kvGet (key : KvKey) : Option (Option Bytes) :=
  db.query .kvStore ["key", "value"] fun r =>
    (r.rows.find? fun row => (r.cell row "key").equals (.text (text key.name))).bind fun row =>
      (r.cell row "value").blob?

def insertRawRx (now : Int) (code : UInt8) (payload : Bytes) : Option Database :=
  let names := ["ts", "code", "payload"]
  db.statement .rawRx names (·.insertNext names [.integer now, .integer code.toNat, .blob payload])

/-! ### Maintenance -/

def purgeMessages (now : Int) (days : Nat) : Option Database :=
  db.statement .messages ["received_at", "timestamp"] fun r =>
    r.retain fun row =>
      !((r.cell row "received_at").coalesce (r.cell row "timestamp")).below (NodeState.cutoff now days)

def purgeRawRx (now : Int) (days : Nat) : Option Database :=
  db.statement .rawRx ["ts"] fun r => r.retain fun row => !(r.cell row "ts").below (NodeState.cutoff now days)

def purgeContacts (threshold : Int) : Option Database :=
  db.statement .contacts ["seen_at"] fun r => r.retain fun row =>
    !((r.cell row "seen_at").coalesce (.integer 0)).below threshold

def purgeClients (now : Int) (days : Nat) : Option Database :=
  db.statement .clients ["last_connected_at"] fun r => r.retain fun row =>
    !(r.cell row "last_connected_at").below (NodeState.cutoff now days)

end Database

/-- A statement that writes. -/
inductive NodeOp
  | upsertContact (now : Int) (c : CachedContact)
  | deleteContact (publicKey : Bytes)
  | upsertChannel (c : CachedChannel)
  | deleteChannel (idx : Int)
  | insertMessage (now : Int) (msg : NewMessage)
  | advanceClientCursor (now : Int) (who : Identity) (seenId : MessageId)
  | kvSet (key : KvKey) (value : Bytes)
  | insertRawRx (now : Int) (code : UInt8) (payload : Bytes)
  | purgeMessages (now : Int) (days : Nat)
  | purgeRawRx (now : Int) (days : Nat)
  | purgeContacts (threshold : Int)
  | purgeClients (now : Int) (days : Nat)

def Database.perform (db : Database) : NodeOp → Option Database
  | .upsertContact now c => db.upsertContact now c
  | .deleteContact publicKey => db.deleteContact publicKey
  | .upsertChannel c => db.upsertChannel c
  | .deleteChannel idx => db.deleteChannel idx
  | .insertMessage now msg => db.insertMessage now msg
  | .advanceClientCursor now who seenId => db.advanceClientCursor now who seenId
  | .kvSet key value => db.kvSet key value
  | .insertRawRx now code payload => db.insertRawRx now code payload
  | .purgeMessages now days => db.purgeMessages now days
  | .purgeRawRx now days => db.purgeRawRx now days
  | .purgeContacts threshold => db.purgeContacts threshold
  | .purgeClients now days => db.purgeClients now days

/-- What the statement comes to. -/
def NodeState.perform (s : NodeState) : NodeOp → NodeState
  | .upsertContact now c => s.upsertContact now c
  | .deleteContact publicKey => s.deleteContact publicKey
  | .upsertChannel c => s.upsertChannel c
  | .deleteChannel idx => s.deleteChannel idx
  | .insertMessage now msg => s.insertMessage now msg
  | .advanceClientCursor now who seenId => s.advanceClientCursor now who seenId
  | .kvSet key value => s.kvSet key value
  | .insertRawRx now code payload => s.insertRawRx now code payload
  | .purgeMessages now days => s.purgeMessages now days
  | .purgeRawRx now days => s.purgeRawRx now days
  | .purgeContacts threshold => s.purgeContacts threshold
  | .purgeClients now days => s.purgeClients now days

end CoreSplitter
