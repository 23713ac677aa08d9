import CoreSplitter.Core.Messages

/-! The radio queue: one request in flight, the others waiting in order. -/

namespace CoreSplitter
open Bytes

namespace Core

/-! ### Dispatch -/

/-- `send_to_radio` succeeds. -/
def canSend (c : Core) (env : Env) : Bool := c.radioSendTx && env.writerOpen

/-- Reply ERROR to the client of a failed request, if it has one. -/
def failTo (c : Core) (q : Queued) : Core :=
  match q.clientId with
  | some cid => c.sendToClient cid [0x01, 0x01] (.error q.ticket)
  | none => c

/-- What a command changes in the cache as it is sent, before the radio has answered. -/
def invalidate (c : Core) (env : Env) (payload : Command) : Core :=
  match payload.code with
  -- REMOVE_CONTACT: the next cached GET_CONTACTS would resurrect it.
  | 0x0F =>
    if h : payload.bytes.length ≥ 33 then
      if env.dbOk .deleteContact then
        { c with db := c.db.deleteContact (slice payload.bytes 1 33 ⟨by omega, h⟩) }
      else c
    else c
  | 0x20 =>
    if h : payload.bytes.length > 1 then
      if env.dbOk .deleteChannel then { c with db := c.db.deleteChannel payload.bytes[1].toNat } else c
    else c
  -- Setters that mutate SELF_INFO / DEVICE_INFO / BATTERY.
  | 0x08 | 0x0B | 0x0C | 0x0E | 0x15 | 0x25 | 0x26 | 0x33 =>
    { c with selfInfoRaw := none, deviceInfoRaw := none, batteryInfoRaw := none }
  | _ => c

/-- The slot for a request that was sent now. -/
def inFlightOf (c : Core) (env : Env) (q : Queued) : InFlight where
  clientId := q.clientId
  payload := q.payload
  lastActivity := env.now
  sentUnix := env.unix
  awaiting := awaitingFor q.payload
  origin := q.clientId.bind c.identityOf
  ticket := q.ticket

/-- Forward a command to the radio and set up the slot; on failure the slot stays free. -/
def dispatchToRadio (c : Core) (env : Env) (q : Queued) : Core :=
  if c.canSend env then
    let c := (c.emit (.radio q)).invalidate env q.payload
    { c with inFlight := some (c.inFlightOf env q) }
  else (c.failTo q).emit (.ended q .sendFailed)

/-! ### The queue -/

/-- Number a request that is handed to the queue. -/
def hand (c : Core) (clientId : Option ClientId) (payload : Command) : Queued × Core :=
  let q : Queued := ⟨clientId, payload, c.nextTicket⟩
  (q, { c with nextTicket := c.nextTicket + 1 }.emit (.handed q))

def pushBack (c : Core) (clientId : Option ClientId) (payload : Command) : Core :=
  let (q, c) := c.hand clientId payload
  { c with pendingQueue := c.pendingQueue ++ [q] }

/-- Enqueue the command if the radio is busy, otherwise dispatch it immediately. -/
def enqueueOrDispatch (c : Core) (env : Env) (clientId : Option ClientId) (payload : Command) : Core :=
  if c.inFlight.isNone then
    let (q, c) := c.hand clientId payload
    c.dispatchToRadio env q
  else c.pushBack clientId payload

/-- Whether the client of an entry is still connected; internal entries are always eligible. -/
def isEligible (c : Core) (q : Queued) : Bool × Core :=
  match q.clientId with
  | some cid => c.clientIsAlive cid
  | none => (true, c)

/-- `advance_queue` over what the queue holds. -/
def advanceFrom (c : Core) (env : Env) : List Queued → Core
  | [] => { c with pendingQueue := [] }
  | q :: rest =>
    let (alive, c) := { c with pendingQueue := rest }.isEligible q
    if !alive then advanceFrom (c.emit (.ended q .clientGone)) env rest
    else
      let c := c.dispatchToRadio env q
      if c.inFlight.isSome then c else advanceFrom c env rest

/-- Pop and dispatch the next queued command whose client is still connected. -/
def advanceQueue (c : Core) (env : Env) : Core := c.advanceFrom env c.pendingQueue

/-- `advance_queue_sync` over what the queue holds. It touches no cache, and gives up at the first entry it
    cannot send. -/
def advanceFromSync (c : Core) (env : Env) : List Queued → Core
  | [] => { c with pendingQueue := [] }
  | q :: rest =>
    let (alive, c) := { c with pendingQueue := rest }.isEligible q
    if !alive then advanceFromSync (c.emit (.ended q .clientGone)) env rest
    else if !c.radioSendTx then c.emit (.ended q .sendFailed)
    else if !env.writerOpen then (c.failTo q).emit (.ended q .sendFailed)
    else { c.emit (.radio q) with inFlight := some (c.inFlightOf env q) }

def advanceQueueSync (c : Core) (env : Env) : Core := c.advanceFromSync env c.pendingQueue

/-- GET_CONTACTS without a filter. -/
def getContacts : Command := .mk' 0x04 []

def getChannel (idx : UInt8) : Command := .mk' 0x1F [idx]

/-- Queue the contacts and channels sync, and start it if the radio is idle. -/
def syncFromRadio (c : Core) (env : Env) : Core :=
  let c := c.pushBack none getContacts
  let c := (List.range c.maxChannels.toNat).foldl (fun c idx => c.pushBack none (getChannel (UInt8.ofNat idx))) c
  if c.inFlight.isNone then c.advanceQueueSync env else c

/-- Queue an internal GET_CONTACT_BY_KEY, behind the client requests already waiting. -/
def queueContactRefresh (c : Core) (pubkey : Bytes) : Core := c.pushBack none (.mk' 0x1E pubkey)

/-! ### Acceptance -/

/-- Contact table changes make the proxy read again what the radio now holds; a new node name goes into
    later channel echoes. -/
def afterAccepted (c : Core) (env : Env) (done : InFlight) : Core :=
  let payload := done.payload.bytes
  match done.cmdCode with
  | 0x04 =>
    if payload.length = 1 then
      if env.dbOk (.kvSet .contactsSyncedAt) then { c with db := c.db.setContactsSyncedAt done.sentUnix } else c
    else c
  | 0x09 | 0x0D => if h : payload.length ≥ 33 then c.queueContactRefresh (slice payload 1 33 ⟨by omega, h⟩) else c
  -- IMPORT_CONTACT takes an advert blob: the key isn't at a fixed offset.
  | 0x12 => c.pushBack none getContacts
  | 0x08 =>
    have h : 1 ≤ payload.length := List.length_pos_iff.mpr done.payload.ne
    { c with radioName := some (trimEndNul (Utf8.lossy (slice payload 1 (min payload.length 32) (by omega)))) }
  | _ => c

/-- The echo of an accepted SEND_MSG or SEND_CHAN_MSG. -/
def echoAccepted (c : Core) (env : Env) (done : InFlight) : Core :=
  match done.clientId with
  | none => c
  | some cid =>
    match done.cmdCode with
    | 0x02 => if h : 14 ≤ done.payload.bytes.length then c.synthesizeContactEcho env cid done h else c
    | 0x03 => if h : 8 ≤ done.payload.bytes.length then c.synthesizeChannelEcho env cid done h else c
    | _ => c

/-- Side effects of a command that only make sense once the radio has accepted it. -/
def onCommandAccepted (c : Core) (env : Env) (done : InFlight) : Core :=
  let c := c.emit (.accepted done.request)
  let c := match done.clientId with
    | some cid => if done.cmdCode = 0x01 then c.notifyMissed cid else c
    | none => c
  (c.afterAccepted env done).echoAccepted env done

end Core
end CoreSplitter
