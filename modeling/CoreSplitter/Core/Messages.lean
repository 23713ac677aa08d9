import CoreSplitter.Core.State
import CoreSplitter.Lib.Utf8

/-! Messages: who has seen which, replaying what a client missed, and the echo of what a client sent. -/

namespace CoreSplitter
open Bytes

namespace Core

/-! ### Storing -/

def advanceClientCursor (c : Core) (env : Env) (who : Identity) (seenId : MessageId) : Core :=
  { c with db := c.db.advanceClientCursor env.unix who seenId }

/-- The sessions of connections that are gone are dropped here, and only here. -/
def dropGoneSessions (c : Core) : Core :=
  let c := c.lockClients
  { c with
    sessions := c.sessions.retain fun cid _ => c.clients.channels.contains cid
    protocolVersions := c.protocolVersions.retain fun cid _ => c.clients.channels.contains cid }

/-- The identities of the sessions that have nothing pending. The source sorts them before it drops the
    duplicates; each has a row of its own, so their order does not matter. -/
def caughtUp (c : Core) : List Identity :=
  ((c.sessions.rows.filter fun r => r.2.pending.isEmpty).map fun r => r.2.identity).dedup

def followHead (c : Core) (env : Env) (id : MessageId) : Core :=
  let c := c.dropGoneSessions
  c.caughtUp.foldl
    (fun c who => if env.dbOk (.followHead who) then c.advanceClientCursor env who id else c) c

/-- Persist a message as clients saw it and advance the cursor of every connected, caught-up client. -/
def storeMessage (c : Core) (env : Env) (msg : NewMessage) : Core :=
  if env.dbOk .insertMessage then
    let row := c.db.newRow env.unix msg
    let c := { c with db := c.db.insertMessage env.unix msg }
    (c.emit (.stored row c.db.clients.keys)).followHead env row.id
  else c

/-! ### Sessions and replay -/

/-- APP_START: [0x01, app_ver, reserved(6), app_name...]. -/
def appNameOf (payload : Bytes) : Bytes := trimEndNul (Utf8.lossy (payload.drop 8))

/-- The messages a client hasn't seen; none when the database fails. -/
def missedBy (c : Core) (env : Env) (who : Identity) : List MessageId :=
  if !env.dbOk .registerCursor then []
  else if !env.dbOk .registerIds then []
  else
    match c.db.clientCursor who with
    | some cursor => c.db.messageIdsAfter cursor who
    | none => c.db.backlogMessageIds env.unix c.config.newClientBacklog who

/-- With nothing pending the client is up to date; otherwise its cursor stays just below the first
    pending message. -/
def registerSession (c : Core) (env : Env) (cmd : ClientCommand) : Core :=
  let who : Identity := (cmd.localPort, appNameOf cmd.payload)
  let pending := c.missedBy env who
  let cursor := match pending with
    | [] => if env.dbOk .registerHead then c.db.messageHead else 0
    | first :: _ => first - 1
  let c := if env.dbOk .registerAdvance then c.advanceClientCursor env who cursor else c
  { c with sessions := c.sessions.insert cmd.clientId ⟨who.1, who.2, pending⟩ }

def notifyMissed (c : Core) (cid : ClientId) : Core :=
  match c.sessions.lookup cid with
  | some s => if s.pending.isEmpty then c else c.sendToClient cid [0x83] .notify
  | none => c

/-- The session's pending list after a `pop_front`. -/
def setPending (c : Core) (cid : ClientId) (s : Session) (pending : List MessageId) : Core :=
  { c with sessions := c.sessions.insert cid { s with pending := pending } }

/-- The loop of `replay_next_missed` over the pending list: a message purged since is skipped. -/
def replayPending (c : Core) (env : Env) (cid : ClientId) (s : Session) : List MessageId → Bool × Core
  | [] => (false, c)
  | id :: rest =>
    let c := c.setPending cid s rest
    match if env.dbOk (.replayFrame id) then c.db.messageFrame id else none with
    | none => replayPending c env cid s rest
    | some frame =>
      let c := c.sendToClient cid frame (.replay id)
      (true, if env.dbOk .replayAdvance then c.advanceClientCursor env s.identity id else c)

/-- Whether the client's session has nothing left to replay. -/
def isCaughtUp (c : Core) (cid : ClientId) : Bool :=
  (c.sessions.lookup cid).any fun s => s.pending.isEmpty

/-- Answer a GET_MSG with the next message the client missed; `false` when there is none left. -/
def replayNextMissed (c : Core) (env : Env) (cid : ClientId) : Bool × Core :=
  match c.sessions.lookup cid with
  | none => (false, c)
  | some s =>
    let (served, c) := c.replayPending env cid s s.pending
    -- Caught up: from now on the cursor follows live traffic.
    (served,
      if c.isCaughtUp cid && env.dbOk .replayHead && env.dbOk .replayCatchUp then
        c.advanceClientCursor env s.identity c.db.messageHead
      else c)

/-! ### Echoes -/

/-- A CONTACT_MSG_RECV for the rest of the clients, from a SEND_MSG. -/
def contactEcho (pk : PublicKey) (payload : Bytes) (h : 14 ≤ payload.length) : NewMessage :=
  let fromKey := slice pk.1 0 6 (by rw [pk.2]; omega)
  let msgType := payload[1]
  let ts := slice payload 3 7 (by omega)
  let txt := Utf8.lossy (slice payload 13 payload.length (by omega))
  { msgType := .contact
    fromKey := some fromKey
    channelIdx := none
    text := txt
    timestamp := leNat ts
    frame := 0x07 :: (fromKey ++ 0 :: msgType :: (ts ++ txt))
    origin := none }

/-- A CHANNEL_MSG_RECV for the rest of the clients, from a SEND_CHAN_MSG. -/
def channelEcho (pk : PublicKey) (name : Option Bytes) (payload : Bytes) (h : 8 ≤ payload.length) : NewMessage :=
  let ts := slice payload 3 7 (by omega)
  let onAir := channelTextOnAir name (slice payload 7 payload.length (by omega))
  { msgType := .channel
    fromKey := some (slice pk.1 0 6 (by rw [pk.2]; omega))
    channelIdx := some payload[2].toNat
    text := Utf8.lossy onAir
    timestamp := leNat ts
    frame := 0x08 :: payload[2] :: 0 :: 0 :: (ts ++ onAir)
    origin := none }

/-- Send an echo to everybody but the sender, and store it under its origin. -/
def synthesizeEcho (c : Core) (env : Env) (sender : ClientId) (done : InFlight) (echo : NewMessage) : Core :=
  (c.broadcastToOthers (some sender) echo.frame (.echo done.ticket)).storeMessage env
    { echo with origin := done.origin }

def synthesizeContactEcho (c : Core) (env : Env) (sender : ClientId) (done : InFlight)
    (h : 14 ≤ done.payload.bytes.length) : Core :=
  match c.radioPubkey with
  | none => c
  | some pk => c.synthesizeEcho env sender done (contactEcho pk done.payload.bytes h)

def synthesizeChannelEcho (c : Core) (env : Env) (sender : ClientId) (done : InFlight)
    (h : 8 ≤ done.payload.bytes.length) : Core :=
  match c.radioPubkey with
  | none => c
  | some pk => c.synthesizeEcho env sender done (channelEcho pk c.radioName done.payload.bytes h)

end Core
end CoreSplitter
