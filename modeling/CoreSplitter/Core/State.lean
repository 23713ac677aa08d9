import CoreSplitter.Node.State

/-! The state of the core actor (`core.rs`), what it is told by its surroundings, and what it emits.

    Requests carry a ticket, numbered in the order they are handed to the radio queue, and `out` records
    what a handler emits; no branch of the program reads either. -/

namespace CoreSplitter
open Bytes

/-! ### Commands and replies -/

/-- A payload with a code: `handle_client_command` lets no empty one through, so `payload[0]` is in range. -/
structure Command where
  bytes : Bytes
  ne : bytes ≠ []
deriving DecidableEq, Repr

namespace Command

def code (p : Command) : UInt8 := p.bytes.head p.ne

/-- `vec![code, args..]`. -/
def mk' (code : UInt8) (args : Bytes) : Command := ⟨code :: args, List.cons_ne_nil _ _⟩

@[simp] theorem mk'_bytes {code : UInt8} {args : Bytes} : (mk' code args).bytes = code :: args := rfl
@[simp] theorem mk'_code {code : UInt8} {args : Bytes} : (mk' code args).code = code := rfl

end Command

/-- How long the radio may stay silent on an in-flight request (ms). -/
def inFlightTimeout : Nat := 5000

/-- Maximum age of a `pendingAcks` entry (ms). -/
def pendingAckTtl : Nat := 300000

/-- Companion protocol version the proxy negotiates with the radio. -/
def radioProtocolVersion : UInt8 := 3

/-- Longest text the firmware puts in a message. -/
def maxTextLen : Nat := 160

def contactFrameLen : Nat := 148

def isPushEvent (code : UInt8) : Bool := code ≥ 0x80

/-- What a request is waiting for, to know when to free the slot. -/
inductive Awaiting
  | any
  | oneOf (codes : List UInt8)
  | stream (frameCodes : List UInt8) (terminatorCode : UInt8)
deriving DecidableEq, Repr

/-- `(belongs, completes)` for a frame with `code`. -/
def Awaiting.classify (a : Awaiting) (code : UInt8) : Bool × Bool :=
  match a with
  | .any => (!isPushEvent code, true)
  | .oneOf codes => (code == 0x01 || codes.contains code, true)
  | .stream frameCodes terminatorCode =>
    let ends := code == terminatorCode || code == 0x01
    (ends || frameCodes.contains code, ends)

/-- The shape of the radio's reply to a command. -/
def awaitingFor (p : Command) : Awaiting :=
  match p.code with
  | 0x04 => .stream [0x02, 0x03] 0x04
  | 0x01 => .oneOf [0x05]
  | 0x02 | 0x1A | 0x1B | 0x24 | 0x32 | 0x34 | 0x39 => .oneOf [0x06]
  -- SEND_TELEMETRY_REQ about ourselves is answered with the push itself.
  | 0x27 => if p.bytes.length = 4 then .oneOf [0x8B] else .oneOf [0x06]
  | 0x05 => .oneOf [0x09]
  | 0x0A => .oneOf [0x07, 0x08, 0x10, 0x11, 0x1B, 0x0A]
  | 0x11 => .oneOf [0x0B]
  | 0x14 => .oneOf [0x0C]
  | 0x16 => .oneOf [0x0D]
  | 0x17 => .oneOf [0x0E, 0x0F]
  | 0x18 => .oneOf [0x00, 0x0F]
  | 0x1E => .oneOf [0x03]
  | 0x1F => .oneOf [0x12]
  | 0x21 => .oneOf [0x13]
  | 0x23 => .oneOf [0x14]
  | 0x28 => .oneOf [0x15]
  | 0x2A => .oneOf [0x16]
  | 0x2B => .oneOf [0x17]
  | 0x38 => .oneOf [0x18]
  | 0x3B => .oneOf [0x19]
  | 0x3C => .oneOf [0x1A]
  | 0x40 => .oneOf [0x1C]
  | 0x42 => .oneOf [0x1D]
  | 0x03 | 0x06 | 0x07 | 0x08 | 0x09 | 0x0B | 0x0C | 0x0D | 0x0E | 0x0F | 0x10 | 0x12 | 0x15 | 0x19 | 0x1C
  | 0x1D | 0x20 | 0x22 | 0x25 | 0x26 | 0x29 | 0x33 | 0x36 | 0x37 | 0x3A | 0x3D | 0x3E | 0x3F | 0x41 => .oneOf [0x00]
  | _ => .any

/-- Hand a message frame over in the layout the client negotiated; any other frame goes untouched. -/
def messageFrameFor (version : UInt8) (frame : Bytes) : Bytes :=
  match frame with
  | [] => []
  | code :: rest =>
    if (code = 0x10 ∨ code = 0x11) ∧ ¬version ≥ 3 ∧ frame.length ≥ 4 then (code - 0x09) :: frame.drop 4
    else if (code = 0x07 ∨ code = 0x08) ∧ version ≥ 3 then (code + 0x09) :: 0 :: 0 :: 0 :: rest
    else frame

/-- A channel message as the rest of the mesh receives it. -/
def channelTextOnAir (nodeName : Option Bytes) (txt : Bytes) : Bytes :=
  let out := match nodeName with
    | some name => name ++ text ": "
    | none => []
  out ++ txt.take (min txt.length (maxTextLen - out.length))

/-- `[u8; 32]`. -/
abbrev PublicKey := { p : Bytes // p.length = 32 }

/-! ### Requests and sessions -/

abbrev ClientId := Nat
abbrev Ticket := Nat

/-- An entry of `pending_queue`; `clientId` is `none` for internal commands. -/
structure Queued where
  clientId : Option ClientId
  payload : Command
  ticket : Ticket
deriving DecidableEq, Repr

structure InFlight where
  clientId : Option ClientId
  payload : Command
  lastActivity : Nat
  sentUnix : Int
  awaiting : Awaiting
  origin : Option Identity
  ticket : Ticket
deriving DecidableEq, Repr

namespace InFlight

def cmdCode (f : InFlight) : UInt8 := f.payload.code

/-- The queue entry it was. -/
def request (f : InFlight) : Queued := ⟨f.clientId, f.payload, f.ticket⟩

end InFlight

/-- A connected client that has identified itself with APP_START. -/
structure Session where
  port : UInt16
  appName : Bytes
  /-- Stored messages it missed while offline, served one per GET_MSG before the radio is asked. -/
  pending : List MessageId
deriving DecidableEq, Repr

def Session.identity (s : Session) : Identity := (s.port, s.appName)

structure ClientCommand where
  clientId : ClientId
  localPort : UInt16
  payload : Bytes
deriving DecidableEq, Repr

/-! ### Effects -/

/-- How a request left the queue and the slot for good. -/
inductive Ending
  | replied (code : UInt8)
  | timedOut
  /-- The link went down while it was in flight. -/
  | linkLost
  /-- The link went down while it waited. -/
  | drained
  | sendFailed
  | clientGone
deriving DecidableEq, Repr

/-- Why a frame was put on a client's direct channel. -/
inductive Why
  | reply (t : Ticket)
  | error (t : Ticket)
  | fanout (t : Ticket)
  | echo (t : Ticket)
  | replay (id : MessageId)
  | cached
  | notify
  | ack
deriving DecidableEq, Repr

inductive Effect
  /-- A frame on a client's direct channel, in the layout of `version`. -/
  | client (cid : ClientId) (who : Option Identity) (version : UInt8) (frame : Bytes) (why : Why)
  /-- A push event to every client. -/
  | broadcast (frame : Bytes)
  /-- A request passed to `enqueue_or_dispatch` or pushed on `pending_queue`. -/
  | handed (q : Queued)
  /-- A request put on `radio_send_tx`. -/
  | radio (q : Queued)
  /-- A command of the initialisation put on `radio_send_tx`. -/
  | radioInit (p : Command)
  | ended (q : Queued) (how : Ending)
  /-- `on_command_accepted`. -/
  | accepted (q : Queued)
  /-- An entry of `pending_acks`. -/
  | ackPending (t : Ticket) (ack : Bytes)
  /-- A row of `messages`, and the identities that had a row of `clients` then. -/
  | stored (m : MessageRow) (known : List Identity)
deriving DecidableEq, Repr

/-! ### Surroundings -/

inductive LogLevel
  | off
  | summary
  | verbose
deriving DecidableEq, Repr

structure Config where
  eventLogLevel : LogLevel
  /-- The `warn!` records of tracing are enabled. -/
  warnEnabled : Bool
  recordRadioRx : Bool
  retention : Retention
  newClientBacklog : Backlog

/-- The database calls of a handler, by where they stand. -/
inductive DbCall
  | upsertContact
  | upsertChannel
  | deleteContact
  | deleteChannel
  | getContacts
  | getChannels
  | insertMessage
  | insertRawRx
  | registerCursor
  | registerIds
  | registerHead
  | registerAdvance
  | replayFrame (id : MessageId)
  | replayAdvance
  | replayHead
  | replayCatchUp
  | followHead (who : Identity)
  | kvSet (key : KvKey)
  | kvGet (key : KvKey)
  | purgeMessages
  | purgeRawRx
  | readSyncedAt
  | purgeContacts
  | purgeClients
deriving DecidableEq, Repr

/-- What a handler finds around it: the clocks, whether the backend's writer still takes commands, and which
    database calls succeed. -/
structure Env where
  /-- `Instant::now()` (ms). -/
  now : Nat
  /-- `chrono::Utc::now().timestamp()`. -/
  unix : Int
  writerOpen : Bool
  dbOk : DbCall → Bool

/-- What the frontend's tasks do to `client_channels`. -/
inductive FrontendOp
  | connect
  | disconnect (cid : ClientId)
deriving DecidableEq, Repr

/-- `client_channels`. It is shared with the frontend's tasks, so `schedule` says what they do to it before
    each of the next times the core takes its lock. -/
structure Clients where
  channels : List ClientId
  nextId : ClientId
  schedule : List (List FrontendOp)
deriving DecidableEq, Repr

namespace Clients

def apply (s : Clients) : FrontendOp → Clients
  | .connect => { s with channels := s.channels ++ [s.nextId], nextId := s.nextId + 1 }
  | .disconnect cid => { s with channels := s.channels.filter (· != cid) }

def lock (s : Clients) : Clients :=
  match s.schedule with
  | [] => s
  | ops :: rest => ops.foldl apply { s with schedule := rest }

end Clients

/-- The radio handles one command at a time: a single request is in flight, further ones wait in
    `pendingQueue`. -/
structure Core where
  config : Config
  db : NodeState
  selfInfoRaw : Option Bytes
  deviceInfoRaw : Option Bytes
  batteryInfoRaw : Option Bytes
  radioPubkey : Option PublicKey
  radioName : Option Bytes
  maxChannels : UInt8
  /-- `radio_send_tx` is `Some`. -/
  radioSendTx : Bool
  /-- The radio is connected and initialised, so the frontend listens. -/
  radioUp : Bool
  clients : Clients
  inFlight : Option InFlight
  pendingQueue : List Queued
  /-- By expected ack: the client waiting for it, and when it was recorded. -/
  pendingAcks : Table Bytes (ClientId × Nat)
  sessions : Table ClientId Session
  protocolVersions : Table ClientId UInt8
  nextTicket : Ticket
  out : List Effect

namespace Core

/-- `Core::new`. -/
def new (config : Config) (db : NodeState) : Core where
  config := config
  db := db
  selfInfoRaw := none
  deviceInfoRaw := none
  batteryInfoRaw := none
  radioPubkey := none
  radioName := none
  maxChannels := 40
  radioSendTx := false
  radioUp := false
  clients := ⟨[], 1, []⟩
  inFlight := none
  pendingQueue := []
  pendingAcks := ∅
  sessions := ∅
  protocolVersions := ∅
  nextTicket := 0
  out := []

def emit (c : Core) (e : Effect) : Core := { c with out := c.out ++ [e] }

def lockClients (c : Core) : Core := { c with clients := c.clients.lock }

def identityOf (c : Core) (cid : ClientId) : Option Identity := (c.sessions.lookup cid).map Session.identity

def protocolVersion (c : Core) (cid : ClientId) : UInt8 := (c.protocolVersions.lookup cid).getD 0

/-- Whether the client is connected, and the core after it looked. -/
def clientIsAlive (c : Core) (cid : ClientId) : Bool × Core :=
  (c.lockClients.clients.channels.contains cid, c.lockClients)

/-- The record of a frame on the channel of `cid`. -/
def delivery (c : Core) (cid : ClientId) (payload : Bytes) (why : Why) : Effect :=
  .client cid (c.identityOf cid) (c.protocolVersion cid) (messageFrameFor (c.protocolVersion cid) payload) why

def sendToClient (c : Core) (cid : ClientId) (payload : Bytes) (why : Why) : Core :=
  let c := c.lockClients
  if c.clients.channels.contains cid then c.emit (c.delivery cid payload why) else c

/-- Several frames in turn. -/
def sendAllToClient (c : Core) (cid : ClientId) (payloads : List Bytes) (why : Why) : Core :=
  payloads.foldl (fun c payload => c.sendToClient cid payload why) c

/-- The map is iterated in no particular order; each channel gets the frame once. -/
def broadcastToOthers (c : Core) (exclude : Option ClientId) (payload : Bytes) (why : Why) : Core :=
  let c := c.lockClients
  { c with out := c.out ++ (c.clients.channels.filter fun cid => exclude != some cid).map fun cid =>
      c.delivery cid payload why }

end Core
end CoreSplitter
