import CoreSplitter.Core.Cache
import CoreSplitter.Core.Queue

/-! The handlers of the main loop, and what happens around it: initialising the radio, losing it and
    getting it back. -/

namespace CoreSplitter
open Bytes

/-! ### Logging -/

inductive Direction
  | toRadio
  | fromRadio
deriving DecidableEq, Repr

/-- The event log decodes every payload unless it is off; what it prints is `eventLine`. -/
def logEvent (config : Config) (direction : Direction) (code : UInt8) (payload : Bytes) : Except Panic Unit := do
  if config.eventLogLevel = .off then return ()
  match direction with
  | .toRadio => let _ ← decodeCommandPayload code payload
  | .fromRadio => let _ ← decodeResponsePayload code payload

namespace Core

/-! ### Client commands -/

/-- The payload that reaches the radio: a DEVICE_QUERY keeps the proxy's version. -/
def forwardedPayload (cmd : Command) : Command :=
  if cmd.code = 0x16 then .mk' 0x16 [radioProtocolVersion] else cmd

/-- The layout a client asks for. -/
def recordVersion (c : Core) (cmdCode : UInt8) (cmd : ClientCommand) : Core :=
  match cmd.payload[1]? with
  | some version =>
    if cmdCode = 0x16 then { c with protocolVersions := c.protocolVersions.insert cmd.clientId version } else c
  | none => c

/-- `handle_client_command` after the cache and the replay were tried. -/
def serveFromRadio (c : Core) (env : Env) (cmd : ClientCommand) (payload : Command) : Core :=
  let (served, c) := c.tryServeFromCache env payload.code cmd
  if served then
    if payload.code = 0x01 then c.notifyMissed cmd.clientId else c
  else c.enqueueOrDispatch env (some cmd.clientId) (forwardedPayload payload)

/-- `handle_client_command` once the command is logged. -/
def serveCommand (c : Core) (env : Env) (cmd : ClientCommand) (payload : Command) : Core :=
  let c := if payload.code = 0x01 then c.registerSession env cmd else c
  let c := c.recordVersion payload.code cmd
  if payload.code = 0x0A then
    let (served, c) := c.replayNextMissed env cmd.clientId
    if served then c else c.serveFromRadio env cmd payload
  else c.serveFromRadio env cmd payload

def handleClientCommand (c : Core) (env : Env) (cmd : ClientCommand) : Except Panic Core :=
  if h : cmd.payload = [] then .ok c
  else do
    let payload : Command := ⟨cmd.payload, h⟩
    let (alive, c) := c.clientIsAlive cmd.clientId
    if !alive then return c
    logEvent c.config .toRadio payload.code cmd.payload
    return c.serveCommand env cmd payload

/-! ### Radio frames -/

/-- Stash the expected ack of the MSG_SENT that closes a client's request, and drop the stale ones. -/
def recordAck (c : Core) (env : Env) (cid : ClientId) (t : Ticket) (code : UInt8) (payload : Bytes) : Core :=
  if h : code = 0x06 ∧ payload.length ≥ 6 then
    let ack := slice payload 2 6 (by omega)
    let fresh := c.pendingAcks.retain fun _ e => decide (env.now - e.2 < pendingAckTtl)
    { c with pendingAcks := fresh.insert ack (cid, env.now) }.emit (.ackPending t ack)
  else c

/-- The reply to its client, and to the others when it is a message that a GET_MSG took off the radio. -/
def deliverReply (c : Core) (env : Env) (f : InFlight) (code : UInt8) (payload : Bytes) : Core :=
  let c := match f.clientId with
    | some cid => (c.recordAck env cid f.ticket code payload).sendToClient cid payload (.reply f.ticket)
    | none => c
  if f.cmdCode = 0x0A ∧ (code = 0x07 ∨ code = 0x08 ∨ code = 0x10 ∨ code = 0x11) then
    c.broadcastToOthers f.clientId payload (.fanout f.ticket)
  else c

/-- The slot is freed, the command's side effects run, and the queue goes on. -/
def complete (c : Core) (env : Env) (f : InFlight) (code : UInt8) : Core :=
  let c := { c with inFlight := none }.emit (.ended f.request (.replied code))
  let c := if code ≠ 0x01 then c.onCommandAccepted env f else c
  c.advanceQueue env

/-- `true` when the frame belongs to the in-flight request. -/
def tryRouteToInFlight (c : Core) (env : Env) (code : UInt8) (payload : Bytes) : Bool × Core :=
  match c.inFlight with
  | none => (false, c)
  | some f =>
    let (matched, isTerminator) := f.awaiting.classify code
    if !matched then (false, c)
    else
      let c := c.deliverReply env f code payload
      (true, if isTerminator then c.complete env f code
        else { c with inFlight := some { f with lastActivity := env.now } })

/-- `true` when the frame is the ACK of a known MSG_SENT. -/
def tryRouteAck (c : Core) (code : UInt8) (payload : Bytes) : Bool × Core :=
  if h : code = 0x82 ∧ 5 ≤ payload.length then
    let ack := slice payload 1 5 (by omega)
    match c.pendingAcks.lookup ack with
    | some (cid, _) => (true, { c with pendingAcks := c.pendingAcks.erase ack }.sendToClient cid payload .ack)
    | none => (false, c)
  else (false, c)

/-- ADVERT / PATH_UPDATE: a contact the radio just updated is read again. -/
def refreshOnPush (c : Core) (env : Env) (code : UInt8) (payload : Bytes) : Core :=
  if h : (code = 0x80 ∨ code = 0x81) ∧ 33 ≤ payload.length then
    let c := c.queueContactRefresh (slice payload 1 33 (by omega))
    if c.inFlight.isNone then c.advanceQueue env else c
  else c

def recordRaw (c : Core) (env : Env) (code : UInt8) (payload : Bytes) : Core :=
  if c.config.recordRadioRx && env.dbOk .insertRawRx then
    { c with db := c.db.insertRawRx env.unix code payload }
  else c

/-- `handle_radio_rx` once the frame is logged and cached. -/
def routeFrame (c : Core) (env : Env) (code : UInt8) (payload : Bytes) : Core :=
  let (routed, c) := c.tryRouteToInFlight env code payload
  if routed then c
  else
    let (routed, c) := c.tryRouteAck code payload
    if routed then c
    else if isPushEvent code then (c.refreshOnPush env code payload).emit (.broadcast payload)
    -- A reply nobody is waiting for is dropped.
    else c

def handleRadioRx (c : Core) (env : Env) (payload : Bytes) : Except Panic Core :=
  match payload with
  | [] => .ok c
  | respCode :: _ => do
    logEvent c.config .fromRadio respCode payload
    let c ← c.cacheResponse env respCode payload
    return (c.recordRaw env respCode payload).routeFrame env respCode payload

/-! ### Ticks -/

/-- If the in-flight request has been silent for too long, fail it and advance the queue. -/
def checkInFlightTimeout (c : Core) (env : Env) : Core :=
  match c.inFlight with
  | none => c
  | some f =>
    if env.now - f.lastActivity ≥ inFlightTimeout then
      let c := { c with inFlight := none }.failTo f.request
      (c.emit (.ended f.request .timedOut)).advanceQueue env
    else c

/-- A call of `maintain`: none is made after one that failed. -/
def purge (env : Env) (call : DbCall) (f : NodeState → NodeState) (s : NodeState × Bool) : NodeState × Bool :=
  if s.2 && env.dbOk call then (f s.1, true) else (s.1, false)

/-- Purge according to the retention settings. -/
def maintain (c : Core) (env : Env) : Core :=
  let r := c.config.retention
  let s := (c.db, true)
  let s := if r.messagesDays > 0 then purge env .purgeMessages (·.purgeMessages env.unix r.messagesDays) s else s
  let s := if r.rawRxDays > 0 then purge env .purgeRawRx (·.purgeRawRx env.unix r.rawRxDays) s else s
  let s := if r.contactsDays > 0 then
      let s := purge env .readSyncedAt id s
      match s.1.contactsSyncedAt with
      | some syncedAt => purge env .purgeContacts
          (·.purgeContacts (NodeState.contactThreshold env.unix r.contactsDays syncedAt)) s
      | none => s
    else s
  let s := if r.clientsDays > 0 then purge env .purgeClients (·.purgeClients env.unix r.clientsDays) s else s
  { c with db := s.1 }

/-- Keeps the last full contact sync fresh, then purges. -/
def runMaintenance (c : Core) (env : Env) : Core :=
  let fullSyncPending := c.inFlight.any (fun f => f.payload.bytes == [0x04]) ||
    c.pendingQueue.any fun q => q.payload.bytes == [0x04]
  let c := if c.config.retention.contactsDays > 0 && !fullSyncPending then
      let c := c.pushBack none getContacts
      if c.inFlight.isNone then c.advanceQueue env else c
    else c
  c.maintain env

/-! ### Initialising the radio -/

/-- What the receive loops of the initialisation see. -/
inductive Recv
  | frame (payload : Bytes)
  | closed
  | deadline
  | shutdown
deriving DecidableEq, Repr

/-- `warn!(code = payload[0], ..)`: the field is evaluated where the record is enabled. -/
def warnUnexpected (c : Core) (payload : Bytes) : Except Panic Unit := do
  if c.config.warnEnabled then
    let _ ← tryIndex payload 0

/-- `true` for `Ok`. What was not received yet stays in the list. -/
def waitForSelfInfo (c : Core) (env : Env) : List Recv → Except Panic (Bool × List Recv × Core)
  | .frame payload :: rest =>
    if payload.head? = some 0x05 then do
      let c ← c.cacheResponse env 0x05 payload
      return (c.selfInfoRaw.isSome, rest, c)
    else do
      c.warnUnexpected payload
      waitForSelfInfo c env rest
  | .closed :: rest | .deadline :: rest | .shutdown :: rest => .ok (false, rest, c)
  | [] => .ok (false, [], c)

def waitForDeviceInfo (c : Core) (env : Env) : List Recv → Except Panic (Bool × List Recv × Core)
  | .frame payload :: rest =>
    if payload.head? = some 0x0D then do
      let c ← c.cacheResponse env 0x0D payload
      return (true, rest, c)
    else if payload.head? = some 0x01 then .ok (true, rest, c)
    else do
      c.warnUnexpected payload
      waitForDeviceInfo c env rest
  -- The timeout keeps the default number of channels.
  | .deadline :: rest => .ok (true, rest, c)
  | .closed :: rest | .shutdown :: rest => .ok (false, rest, c)
  | [] => .ok (true, [], c)

/-- APP_START: [0x01, app_ver, reserved(6), app_name]. -/
def buildAppstart : Command := .mk' 0x01 (1 :: (List.replicate 6 0 ++ text "coresplitter"))

def deviceQuery : Command := .mk' 0x16 [radioProtocolVersion]

/-- One try to connect: whether the backend connects, what its initialisation receives, and what it finds
    around it when it sends APP_START, when it sends DEVICE_QUERY and when the sync begins. -/
structure Attempt where
  connects : Bool
  recv : List Recv
  env : Env
  queryEnv : Env
  syncEnv : Env

def initializeRadio (c : Core) (a : Attempt) : Except Panic (Bool × Core) := do
  if !c.canSend a.env then return (false, c)
  let (ok, recv, c) ← (c.emit (.radioInit buildAppstart)).waitForSelfInfo a.env a.recv
  if !ok then return (false, c)
  if !c.canSend a.queryEnv then return (false, c)
  let (ok, _, c) ← (c.emit (.radioInit deviceQuery)).waitForDeviceInfo a.queryEnv recv
  return (ok, c)

/-- `connect_backend` and `initialize_radio`, and the sync when both succeed. -/
def attemptRadio (c : Core) (a : Attempt) : Except Panic (Bool × Core) := do
  if !a.connects then return (false, c)
  let (ok, c) ← { c with radioSendTx := true }.initializeRadio a
  if ok then return (true, { c.syncFromRadio a.syncEnv with radioUp := true })
  return (false, { c with radioSendTx := false })

/-- The reconnection loop, until an attempt succeeds or, after the last one, the proxy is shut down. -/
def reconnectLoop (c : Core) : List Attempt → Except Panic Core
  | [] => .ok c
  | a :: rest => do
    let (ok, c) ← c.attemptRadio a
    if ok then return c else reconnectLoop c rest

/-- The drain of `pending_queue`. -/
def failFrom (c : Core) : List Queued → Core
  | [] => { c with pendingQueue := [] }
  | q :: rest => failFrom (({ c with pendingQueue := rest }.failTo q).emit (.ended q .drained)) rest

/-- Fail everything that was in flight or queued. -/
def failAll (c : Core) : Core :=
  let c := { c with radioSendTx := false, radioUp := false }
  let c := match c.inFlight with
    | some f => ({ c with inFlight := none }.failTo f.request).emit (.ended f.request .linkLost)
    | none => c
  c.failFrom c.pendingQueue

def reconnectRadio (c : Core) (attempts : List Attempt) : Except Panic Core := c.failAll.reconnectLoop attempts

/-! ### Startup -/

/-- `kv_get` of a blob that the radio has not given yet. -/
def restored (c : Core) (env : Env) (key : KvKey) (blob : Option Bytes) : Option Bytes :=
  match blob with
  | some _ => none
  | none => if env.dbOk (.kvGet key) then c.db.kvGet key else none

def restoreSelfInfo (c : Core) (env : Env) : Except Panic Core :=
  match c.restored env .selfInfoRaw c.selfInfoRaw with
  | some blob => do return { ← c.extractRadioIdentity blob with selfInfoRaw := some blob }
  | none => .ok c

def restoreDeviceInfo (c : Core) (env : Env) : Except Panic Core :=
  match c.restored env .deviceInfoRaw c.deviceInfoRaw with
  | some blob => do return { ← c.extractMaxChannels blob with deviceInfoRaw := some blob }
  | none => .ok c

def restoreBatteryInfo (c : Core) (env : Env) : Core :=
  match c.restored env .batteryInfoRaw c.batteryInfoRaw with
  | some blob => { c with batteryInfoRaw := some blob }
  | none => c

def restoreBlobs (c : Core) (env : Env) : Except Panic Core := do
  let c ← c.restoreSelfInfo env
  let c ← c.restoreDeviceInfo env
  return c.restoreBatteryInfo env

/-- `run` up to its loop: a first try, the reconnection loop when it fails, then the persisted blobs. -/
def start (c : Core) (env : Env) (first : Attempt) (attempts : List Attempt) : Except Panic Core := do
  let (ok, c) ← c.attemptRadio first
  let c ← if ok then pure c else c.reconnectRadio attempts
  c.restoreBlobs env

/-! ### Runs -/

/-- What the main loop handles; the frontend's tasks act before it, and in between as `frontend` says. -/
inductive Event
  | command (env : Env) (cmd : ClientCommand)
  | radio (env : Env) (payload : Bytes)
  | timeoutTick (env : Env)
  | maintenanceTick (env : Env)
  | disconnected (attempts : List Attempt)
  /-- The frontend's tasks alone. -/
  | idle

/-- A handler starts with an empty record of effects. -/
def begin (c : Core) (frontend : List (List FrontendOp)) : Core :=
  { c with clients := { c.clients with schedule := frontend }, out := [] }

def handle (c : Core) : Event → Except Panic Core
  | .command env cmd => c.handleClientCommand env cmd
  | .radio env payload => c.handleRadioRx env payload
  | .timeoutTick env => .ok (c.checkInFlightTimeout env)
  | .maintenanceTick env => .ok (c.runMaintenance env)
  | .disconnected attempts => c.reconnectRadio attempts
  | .idle => .ok c.lockClients

/-- One turn of the main loop. -/
def step (c : Core) (frontend : List (List FrontendOp)) (e : Event) : Except Panic Core :=
  (c.begin frontend).handle e

/-- What the frontend's tasks do during a turn of the main loop, and what the turn handles. -/
abbrev Turn := List (List FrontendOp) × Event

/-- The main loop on a list of turns, with all that it emitted. -/
def turns (c : Core) : List Turn → Except Panic (List Effect × Core)
  | [] => .ok ([], c)
  | (frontend, e) :: rest => do
    let c ← c.step frontend e
    let (h, c') ← turns c rest
    return (c.out ++ h, c')

/-- A run of the main loop whose steps all satisfy `p`, with all that it emitted. -/
inductive Run (p : Core → List (List FrontendOp) → Event → Prop) : Core → List Effect → Core → Prop
  | refl (c : Core) : Run p c [] c
  | step {c c₁ c₂ : Core} {h : List Effect} {frontend : List (List FrontendOp)} {e : Event} :
      Run p c h c₁ → p c₁ frontend e → c₁.step frontend e = .ok c₂ → Run p c (h ++ c₂.out) c₂

/-- A turn of the main loop, between the state it found and the state it left. -/
structure Lap where
  before : Core
  frontend : List (List FrontendOp)
  event : Event
  after : Core

/-- The turns of a run, one after the other. -/
inductive Trace : Core → List Lap → Core → Prop
  | nil (c : Core) : Trace c [] c
  | cons {c c₁ c₂ : Core} {frontend : List (List FrontendOp)} {e : Event} {l : List Lap} :
      c.step frontend e = .ok c₁ → Trace c₁ l c₂ → Trace c (⟨c, frontend, e, c₁⟩ :: l) c₂

/-- The main loop on a list of turns, with each of them. -/
def laps (c : Core) : List Turn → Except Panic (List Lap × Core)
  | [] => .ok ([], c)
  | (frontend, e) :: rest => do
    let c₁ ← c.step frontend e
    let (l, c₂) ← laps c₁ rest
    return (⟨c, frontend, e, c₁⟩ :: l, c₂)

/-- All that some turns emitted. -/
def history (l : List Lap) : List Effect := l.flatMap (·.after.out)

/-- The states of a proxy whose attempts to connect all satisfy `q`, once it runs its loop, with all that was
    emitted since it was started. -/
def ReachableWith (q : Attempt → Prop) (p : Core → List (List FrontendOp) → Event → Prop) (h : List Effect)
    (c : Core) : Prop :=
  ∃ config db env first attempts c₀ h', q first ∧ (∀ a ∈ attempts, q a) ∧
    (Core.new config db).start env first attempts = .ok c₀ ∧ Run p c₀ h' c ∧ h = c₀.out ++ h'

def Reachable : List Effect → Core → Prop := ReachableWith (fun _ => True) fun _ _ _ => True

section
variable {p : Core → List (List FrontendOp) → Event → Prop} {q : Attempt → Prop} {c c₁ c₂ : Core} {h h' : List Effect}

theorem Run.trans (h₁ : Run p c h c₁) (h₂ : Run p c₁ h' c₂) : Run p c (h ++ h') c₂ := by
  induction h₂ with
  | refl => simpa using h₁
  | step _ hp hs ih => rw [← List.append_assoc]; exact ih.step hp hs

theorem Run.mono {p' : Core → List (List FrontendOp) → Event → Prop} (hr : Run p c h c₁)
    (hp : ∀ c frontend e, p c frontend e → p' c frontend e) : Run p' c h c₁ := by
  induction hr with
  | refl => exact .refl _
  | step _ hallow hs ih => exact ih.step (hp _ _ _ hallow) hs

theorem Run.of_turns {l : List Turn} (hl : ∀ t ∈ l, ∀ c, p c t.1 t.2) (h₁ : c.turns l = .ok (h, c₁)) :
    Run p c h c₁ := by
  induction l generalizing c h with
  | nil =>
    cases h₁
    exact .refl _
  | cons t l ih =>
    obtain ⟨c₂, hstep, h₁⟩ := Except.of_bind_eq_ok h₁
    obtain ⟨⟨h₂, c₃⟩, hturns, h₁⟩ := Except.of_bind_eq_ok h₁
    cases h₁
    have hhead : Run p c ([] ++ c₂.out) c₂ := .step (.refl c) (hl t List.mem_cons_self c) hstep
    exact hhead.trans (ih (fun t ht => hl t (List.mem_cons_of_mem _ ht)) hturns)

@[simp] theorem history_cons {s : Lap} {l : List Lap} : history (s :: l) = s.after.out ++ history l := rfl

@[simp] theorem history_append {l l' : List Lap} : history (l ++ l') = history l ++ history l' := List.flatMap_append

theorem mem_history {l : List Lap} {e : Effect} : e ∈ history l ↔ ∃ s ∈ l, e ∈ s.after.out := List.mem_flatMap

theorem Trace.run {l : List Lap} (h : Trace c l c₁) : Run (fun _ _ _ => True) c (history l) c₁ := by
  induction h with
  | nil c => exact .refl c
  | @cons c c₁ c₂ frontend e l hs _ ih =>
    have hhead : Run (fun _ _ _ => True) c ([] ++ c₁.out) c₁ := .step (.refl c) trivial hs
    exact hhead.trans ih

theorem Trace.append {l l' : List Lap} (h₁ : Trace c l c₁) (h₂ : Trace c₁ l' c₂) : Trace c (l ++ l') c₂ := by
  induction h₁ with
  | nil => exact h₂
  | cons hs _ ih => exact .cons hs (ih h₂)

theorem Trace.of_laps {ts : List Turn} {l : List Lap} (h : c.laps ts = .ok (l, c₁)) :
    Trace c l c₁ ∧ ∀ s ∈ l, (s.frontend, s.event) ∈ ts := by
  induction ts generalizing c l with
  | nil =>
    cases h
    exact ⟨.nil _, List.forall_mem_nil _⟩
  | cons t ts ih =>
    obtain ⟨c₂, hs, h⟩ := Except.of_bind_eq_ok h
    obtain ⟨⟨l', c₃⟩, hl, h⟩ := Except.of_bind_eq_ok h
    cases h
    obtain ⟨htrace, hturns⟩ := ih hl
    refine ⟨.cons hs htrace, fun s hs => ?_⟩
    rcases List.mem_cons.mp hs with rfl | hs
    · exact List.mem_cons_self
    · exact List.mem_cons_of_mem _ (hturns s hs)

/-- Each turn of a run starts from where those before it led. -/
theorem Trace.split {l₁ l₂ : List Lap} {s : Lap} (h : Trace c (l₁ ++ s :: l₂) c₂) :
    Trace c l₁ s.before ∧ s.before.step s.frontend s.event = .ok s.after ∧ Trace s.after l₂ c₂ := by
  induction l₁ generalizing c with
  | nil =>
    cases h with
    | cons hs hrest => exact ⟨.nil _, hs, hrest⟩
  | cons s' l₁ ih =>
    cases h with
    | cons hs hrest =>
      obtain ⟨hbefore, hstep, hafter⟩ := ih hrest
      exact ⟨.cons hs hbefore, hstep, hafter⟩

theorem ReachableWith.reachable (hr : ReachableWith q p h c) : Reachable h c := by
  obtain ⟨config, db, env, first, attempts, c₀, h', -, -, hstart, hrun, rfl⟩ := hr
  exact ⟨config, db, env, first, attempts, c₀, h', trivial, fun _ _ => trivial, hstart,
    hrun.mono fun _ _ _ _ => trivial, rfl⟩

theorem ReachableWith.of_turns {config : Config} {db : NodeState} {env : Env} {a : Attempt} {l : List Turn}
    (hstart : (Core.new config db).start env a [] = .ok c) (hturns : c.turns l = .ok (h, c₁)) (hq : q a)
    (hl : ∀ t ∈ l, ∀ c, p c t.1 t.2) : ReachableWith q p (c.out ++ h) c₁ :=
  ⟨config, db, env, a, [], c, h, hq, List.forall_mem_nil _, hstart, .of_turns hl hturns, rfl⟩

end

/-- Surroundings in which every call succeeds, `now` ms after the start. -/
def soundAt (now : Nat) : Env := ⟨now, 0, true, fun _ => true⟩

def sound : Env := soundAt 0

/-- A proxy whose radio answered APP_START with a bare SELF_INFO and refused the DEVICE_QUERY. -/
def booted (eventLogLevel : LogLevel) : Except Panic Core :=
  (Core.new ⟨eventLogLevel, true, false, ⟨0, 0, 0, 0⟩, .off⟩ .empty).start sound
    ⟨true, [.frame [0x05], .frame [0x01]], sound, sound, sound⟩ []

/-- One message, which the client `a` on port 5000 has not seen. -/
def unseen : NodeState := { NodeState.empty with
  messages := [⟨1, .contact, none, none, [], 0, some 0, some [0x07], none, none⟩]
  messageSeq := 1
  clients := AList.insert (5000, [0x61]) ⟨0, 0⟩ ∅ }

/-- A proxy on that database, whose radio has one channel and is not asked for it. -/
def behind : Except Panic Core := (Core.new ⟨.off, true, false, ⟨0, 0, 0, 0⟩, .off⟩ unseen).start sound
  ⟨true, [.frame [0x05], .frame [0x0D, 3, 0, 1]], sound, sound, { sound with writerOpen := false }⟩ []

/-- The APP_START of `a`. -/
def startOf (cid : ClientId) : Event := .command sound ⟨cid, 5000, [0x01, 1, 0, 0, 0, 0, 0, 0, 0x61]⟩

def pollOf (cid : ClientId) : Event := .command sound ⟨cid, 5000, [0x0A]⟩

/-- A DEVICE_QUERY for that version. -/
def queryOf (cid : ClientId) (version : UInt8) : Event := .command sound ⟨cid, 5000, [0x16, version]⟩

def shortMessage : Bytes := [0x11, 0, 0, 0, 0, 0, 0, 0, 0, 0, 0]

end Core
end CoreSplitter
