import CoreSplitter.Theorems.Queue

/-! What a turn of the core does to everything but the queue, as a chain of writes. Each write is an operation of
    the source, so what holds across a turn is shown once for each operation. -/

namespace CoreSplitter
open Bytes

namespace Core

/-- The first of some messages that still has a frame. -/
def firstFrame (c : Core) (env : Env) (pending : List MessageId) : Option (MessageId × Bytes) :=
  pending.findSome? fun id => if env.dbOk (.replayFrame id) then (c.db.messageFrame id).map fun frame =>
    (id, frame) else none

/-- The message that the next GET_MSG of the client replays. -/
def nextMissed (c : Core) (env : Env) (cid : ClientId) : Option (MessageId × Bytes) :=
  (c.sessions.lookup cid).bind fun s => c.firstFrame env s.pending

/-- What a turn can draw on: what it finds around it, the frames of the radio it receives, the command it serves,
    the message a client missed and the request that a frame may answer; and whether it is the start of the proxy, or
    its maintenance. -/
structure Scope where
  env : Env → Prop
  frame : Bytes → Prop
  command : ClientCommand → Prop
  missed : ClientId → MessageId → Bytes → Prop
  done : InFlight → Prop
  startup : Prop
  upkeep : Prop

namespace Scope

/-- A frame that belongs to the request in flight. -/
structure Answers (S : Scope) (f : InFlight) (frame : Bytes) : Prop where
  done : S.done f
  received : S.frame frame
  belongs : ∃ code, frame.head? = some code ∧ (f.awaiting.classify code).1 = true

/-- A frame that completes the request in flight, and not with an ERROR. -/
structure Accepts (S : Scope) (f : InFlight) : Prop where
  done : S.done f
  completes : ∃ frame code, S.frame frame ∧ frame.head? = some code ∧ f.awaiting.classify code = (true, true) ∧
    code ≠ 0x01

/-- An APP_START of the client is served, or accepted by the radio. -/
def Starts (S : Scope) (cid : ClientId) : Prop :=
  (∃ cmd, S.command cmd ∧ cmd.payload.head? = some 0x01 ∧ cmd.clientId = cid) ∨
    ∃ f, S.Accepts f ∧ f.cmdCode = 0x01 ∧ f.clientId = some cid

/-- The code of a message that a GET_MSG took off the radio. -/
def fansOut (code : UInt8) : Prop := code = 0x07 ∨ code = 0x08 ∨ code = 0x10 ∨ code = 0x11

instance {code : UInt8} : Decidable (fansOut code) := inferInstanceAs (Decidable (_ ∨ _))

/-- A request that a frame completes; other endings need none. -/
def Ends (S : Scope) (q : Queued) : Ending → Prop
  | .replied code => ∃ f frame, S.done f ∧ f.request = q ∧ S.frame frame ∧ frame.head? = some code ∧
      f.awaiting.classify code = (true, true)
  | _ => True

/-- What a turn records besides what goes to clients and to the radio. -/
inductive Logs (S : Scope) : Effect → Prop
  | client {cmd : ClientCommand} (hcmd : S.command cmd) (hne : cmd.payload ≠ []) (t : Ticket) :
      S.Logs (.handed ⟨some cmd.clientId, forwardedPayload ⟨cmd.payload, hne⟩, t⟩)
  | internal {p : Command} (hcode : p.code = 0x04 ∨ p.code = 0x1E ∨ p.code = 0x1F) (t : Ticket) :
      S.Logs (.handed ⟨none, p, t⟩)
  | ended {q : Queued} {how : Ending} (h : S.Ends q how) : S.Logs (.ended q how)
  | accepted {f : InFlight} (h : S.Accepts f) : S.Logs (.accepted f.request)
  | ackPending (t : Ticket) (ack : Bytes) : S.Logs (.ackPending t ack)

end Scope

/-- All but the queue, the slot, the tickets, the pending ACKs and the link. -/
def memory (c : Core) :=
  (c.config, c.db, c.selfInfoRaw, c.deviceInfoRaw, c.batteryInfoRaw, c.radioPubkey, c.radioName, c.maxChannels,
    c.clients, c.sessions, c.protocolVersions)

/-- The message that an accepted request sent, as the other clients see it. -/
inductive EchoOf (c : Core) (f : InFlight) : NewMessage → Prop
  | contact {pk : PublicKey} (hpk : c.radioPubkey = some pk) (hcode : f.cmdCode = 0x02)
      (h : 14 ≤ f.payload.bytes.length) : EchoOf c f (contactEcho pk f.payload.bytes h)
  | channel {pk : PublicKey} (hpk : c.radioPubkey = some pk) (hcode : f.cmdCode = 0x03)
      (h : 8 ≤ f.payload.bytes.length) : EchoOf c f (channelEcho pk c.radioName f.payload.bytes h)

theorem EchoOf.sends {c : Core} {f : InFlight} {echo : NewMessage} (h : EchoOf c f echo) :
    f.cmdCode = 0x02 ∨ f.cmdCode = 0x03 := by
  cases h with
  | contact _ hcode => exact Or.inl hcode
  | channel _ hcode => exact Or.inr hcode

inductive Write (S : Scope) : Core → Core → Prop
  | queue {c c' : Core} (hmemory : c'.memory = c.memory) (hout : ∃ es, c'.out = c.out ++ es ∧ ∀ e ∈ es, S.Logs e) :
      Write S c c'
  | lock {c : Core} : Write S c c.lockClients
  | start {c : Core} {env : Env} {q : Queued} (henv : S.env env) : Write S c (c.startWith env q)
  | init {c : Core} {p : Command} (hp : p = buildAppstart ∨ p = deviceQuery) : Write S c (c.emit (.radioInit p))
  | error {c : Core} (cid : ClientId) (t : Ticket) : Write S c (c.sendToClient cid [0x01, 0x01] (.error t))
  | reply {c : Core} {f : InFlight} {cid : ClientId} {frame : Bytes} (h : S.Answers f frame)
      (hclient : f.clientId = some cid) : Write S c (c.sendToClient cid frame (.reply f.ticket))
  | fanout {c : Core} {f : InFlight} {frame : Bytes} {code : UInt8} (h : S.Answers f frame) (hpoll : f.cmdCode = 0x0A)
      (hcode : frame.head? = some code) (hmessage : Scope.fansOut code) :
      Write S c (c.broadcastToOthers f.clientId frame (.fanout f.ticket))
  | ack {c : Core} (cid : ClientId) {frame : Bytes} (hframe : S.frame frame) (hcode : frame.head? = some 0x82) :
      Write S c (c.sendToClient cid frame .ack)
  | broadcast {c : Core} {frame : Bytes} (hframe : S.frame frame) : Write S c (c.emit (.broadcast frame))
  | notify {c : Core} {cid : ClientId} (h : S.Starts cid) : Write S c (c.notifyMissed cid)
  | register {c : Core} {env : Env} {cmd : ClientCommand} (henv : S.env env) (hcmd : S.command cmd)
      (hstart : cmd.payload.head? = some 0x01) : Write S c (c.registerSession env cmd)
  | version {c : Core} {cmd : ClientCommand} (hcmd : S.command cmd) (hne : cmd.payload ≠ []) :
      Write S c (c.recordVersion (cmd.payload.head hne) cmd)
  | replay {c : Core} {env : Env} {cmd : ClientCommand} (henv : S.env env) (hcmd : S.command cmd)
      (hpoll : cmd.payload.head? = some 0x0A)
      (hmissed : ∀ id frame, c.nextMissed env cmd.clientId = some (id, frame) → S.missed cmd.clientId id frame) :
      Write S c (c.replayNextMissed env cmd.clientId).2
  | cached {c : Core} {env : Env} {cmd : ClientCommand} (henv : S.env env) (hcmd : S.command cmd)
      (hne : cmd.payload ≠ []) : Write S c (c.tryServeFromCache env (cmd.payload.head hne) cmd).2
  | cache {c c' : Core} {env : Env} {code : UInt8} {frame : Bytes} (henv : S.env env) (hframe : S.frame frame)
      (hcode : frame.head? = some code) (h : c.cacheResponse env code frame = .ok c') : Write S c c'
  | raw {c : Core} {env : Env} {code : UInt8} {frame : Bytes} : Write S c (c.recordRaw env code frame)
  | accept {c : Core} {env : Env} {f : InFlight} (henv : S.env env) (h : S.Accepts f) :
      Write S c (c.afterAccepted env f)
  | echo {c : Core} {env : Env} {f : InFlight} {cid : ClientId} {echo : NewMessage} (henv : S.env env) (h : S.Accepts f)
      (hclient : f.clientId = some cid) (hecho : c.EchoOf f echo) : Write S c (c.synthesizeEcho env cid f echo)
  | maintain {c : Core} {env : Env} (hupkeep : S.upkeep) (henv : S.env env) : Write S c (c.maintain env)
  | restore {c c' : Core} {env : Env} (hstartup : S.startup) (henv : S.env env) (h : c.restoreBlobs env = .ok c') :
      Write S c c'

abbrev Writes (S : Scope) := Relation.ReflTransGen (Write S)

section
variable {S : Scope} {c c₁ : Core} {env : Env} {q : Queued} {t : Option Ticket}

theorem Writes.queue (hmemory : c₁.memory = c.memory) (hout : c₁.out = c.out) : Writes S c c₁ :=
  .single (.queue hmemory ⟨[], by simp [hout], List.forall_mem_nil _⟩)

theorem Writes.logged {e : Effect} (he : S.Logs e) : Writes S c (c.emit e) :=
  .single (.queue rfl ⟨[e], rfl, by simpa using he⟩)

/-- A request ends without a frame of the radio. -/
theorem Writes.ended (how : Ending) (h : S.Ends q how) : Writes S c (c.emit (.ended q how)) := Writes.logged (.ended h)

theorem Writes.of_if {p : Prop} [Decidable p] (h : p → Writes S c c₁) : Writes S c (if p then c₁ else c) := by
  split
  · exact h ‹_›
  · exact .refl

/-- What each write keeps is kept by a chain of them. -/
theorem Writes.keeps {P : Core → Prop} (h : Writes S c c₁) (hP : P c) (hstep : ∀ c c₁, Write S c c₁ → P c → P c₁) :
    P c₁ := by
  induction h with
  | refl => exact hP
  | tail _ hw ih => exact hstep _ _ hw ih

/-! ### The queue -/

theorem failTo_writes : Writes S c (c.failTo q) := by
  unfold failTo
  split
  · exact .single (.error _ _)
  · exact .refl

theorem dispatchToRadio_writes (henv : S.env env) : Writes S c (c.dispatchToRadio env q) := by
  rw [dispatchToRadio_eq]
  split
  · exact .single (.start henv)
  · exact failTo_writes.trans (Writes.ended .sendFailed trivial)

theorem hand_writes {clientId : Option ClientId} {p : Command} (h : ∀ t, S.Logs (.handed ⟨clientId, p, t⟩)) :
    Writes S c (c.hand clientId p).2 :=
  .single (.queue rfl ⟨[.handed ⟨clientId, p, c.nextTicket⟩], rfl, by simpa using h c.nextTicket⟩)

theorem pushBack_writes {clientId : Option ClientId} {p : Command} (h : ∀ t, S.Logs (.handed ⟨clientId, p, t⟩)) :
    Writes S c (c.pushBack clientId p) :=
  (hand_writes h).trans (Writes.queue rfl rfl)

theorem enqueueOrDispatch_writes {clientId : Option ClientId} {p : Command} (henv : S.env env)
    (h : ∀ t, S.Logs (.handed ⟨clientId, p, t⟩)) : Writes S c (c.enqueueOrDispatch env clientId p) := by
  unfold enqueueOrDispatch
  split
  · exact (hand_writes h).trans (dispatchToRadio_writes henv)
  · exact pushBack_writes h

theorem isEligible_writes : Writes S c (c.isEligible q).2 := by
  unfold isEligible
  split
  · exact .single .lock
  · exact .refl

theorem advanceFrom_writes {qs : List Queued} (henv : S.env env) : Writes S c (c.advanceFrom env qs) := by
  induction qs generalizing c with
  | nil => exact Writes.queue rfl rfl
  | cons q rest ih =>
    have hrest : Writes S c { c with pendingQueue := rest } := Writes.queue rfl rfl
    have hpop : Writes S c (({ c with pendingQueue := rest } : Core).isEligible q).2 := hrest.trans isEligible_writes
    simp only [advanceFrom]
    split
    · exact hpop.trans ((Writes.ended .clientGone trivial).trans ih)
    · split
      · exact hpop.trans (dispatchToRadio_writes henv)
      · exact hpop.trans ((dispatchToRadio_writes henv).trans ih)

theorem advanceQueue_writes (henv : S.env env) : Writes S c (c.advanceQueue env) := advanceFrom_writes henv

theorem advanceFromSync_writes {qs : List Queued} (hsync : ∀ q ∈ qs, IsSync q) (henv : S.env env) :
    Writes S c (c.advanceFromSync env qs) := by
  cases qs with
  | nil => exact Writes.queue rfl rfl
  | cons q rest =>
    have hq := hsync q List.mem_cons_self
    have hpop : Writes S c { c with pendingQueue := rest } := Writes.queue rfl rfl
    simp only [advanceFromSync, isEligible_of_internal hq.1, failTo_of_internal hq.1, Bool.not_true, Bool.false_eq_true,
      if_false]
    split
    · exact hpop.trans (Writes.ended .sendFailed trivial)
    · split
      · exact hpop.trans (Writes.ended .sendFailed trivial)
      · have hstart : Write S (c.popped rest) ((c.popped rest).startWith env q) := .start henv
        simp only [startWith, invalidate_of_sync hq] at hstart
        exact hpop.tail hstart

theorem syncQueued_writes : Writes S c c.syncQueued := by
  have hpush : Writes S c (c.pushBack none getContacts) := pushBack_writes fun t => .internal (Or.inl rfl) t
  refine hpush.trans ?_
  unfold syncQueued
  generalize c.pushBack none getContacts = c₁
  induction List.range c.maxChannels.toNat generalizing c₁ with
  | nil => exact .refl
  | cons idx l ih =>
    have hpush : Writes S c₁ (c₁.pushBack none (getChannel (UInt8.ofNat idx))) :=
      pushBack_writes fun t => .internal (Or.inr (Or.inr rfl)) t
    exact hpush.trans (ih _)

theorem syncFromRadio_writes (henv : S.env env) (hqueue : c.pendingQueue = []) : Writes S c (c.syncFromRadio env) := by
  obtain ⟨-, -, -, hsync⟩ := syncQueued_moves True env none hqueue
  rw [syncFromRadio_eq]
  split
  · exact syncQueued_writes.trans (advanceFromSync_writes hsync henv)
  · exact syncQueued_writes

/-! ### Replies -/

variable {f : InFlight} {code : UInt8} {frame : Bytes}

theorem recordAck_writes {cid : ClientId} : Writes S c (c.recordAck env cid f.ticket code frame) := by
  unfold recordAck
  dsimp only
  split
  · exact .single (.queue rfl ⟨_, rfl, by simpa using .ackPending ..⟩)
  · exact .refl

theorem deliverReply_writes (h : S.Answers f frame) (hcode : frame.head? = some code) :
    Writes S c (c.deliverReply env f code frame) := by
  have hreply : Writes S c (c.replyToClient env f code frame) := by
    unfold replyToClient
    split
    · rename_i cid hclient
      exact recordAck_writes.tail (.reply h hclient)
    · exact .refl
  rw [deliverReply_eq]
  split
  · rename_i hfan
    exact hreply.tail (.fanout h hfan.1 hcode hfan.2)
  · exact hreply

theorem acceptance_writes (h : S.Accepts f) : Writes S c (c.acceptance f) := by
  have haccepted : Writes S c (c.emit (.accepted f.request)) := Writes.logged (.accepted h)
  unfold acceptance
  dsimp only
  split
  · rename_i cid hclient
    split
    · rename_i hcode
      exact haccepted.tail (.notify (Or.inr ⟨f, h, hcode, hclient⟩))
    · exact haccepted
  · exact haccepted

/-- The echo of an acceptance is one write, if it is any. -/
theorem echoAccepted_cases (c : Core) (env : Env) (f : InFlight) :
    c.echoAccepted env f = c ∨ ∃ cid echo, f.clientId = some cid ∧ c.EchoOf f echo ∧
    c.echoAccepted env f = c.synthesizeEcho env cid f echo := by
  unfold echoAccepted
  split
  · exact Or.inl rfl
  · rename_i cid hclient
    split
    · rename_i hcode
      split
      · rename_i hlen
        unfold synthesizeContactEcho
        split
        · exact Or.inl rfl
        · rename_i pk hpk
          exact Or.inr ⟨cid, _, hclient, .contact hpk hcode hlen, rfl⟩
      · exact Or.inl rfl
    · rename_i hcode
      split
      · rename_i hlen
        unfold synthesizeChannelEcho
        split
        · exact Or.inl rfl
        · rename_i pk hpk
          exact Or.inr ⟨cid, _, hclient, .channel hpk hcode hlen, rfl⟩
      · exact Or.inl rfl
    · exact Or.inl rfl

theorem echoAccepted_writes (henv : S.env env) (h : S.Accepts f) : Writes S c (c.echoAccepted env f) := by
  rcases echoAccepted_cases c env f with heq | ⟨cid, echo, hclient, hecho, heq⟩
  · rw [heq]
  · rw [heq]
    exact .single (.echo henv h hclient hecho)

theorem onCommandAccepted_writes (henv : S.env env) (h : S.Accepts f) : Writes S c (c.onCommandAccepted env f) := by
  rw [onCommandAccepted_eq]
  exact ((acceptance_writes h).tail (.accept henv h)).trans (echoAccepted_writes henv h)

theorem complete_writes (henv : S.env env) (hends : S.Ends f.request (.replied code)) (h : code ≠ 0x01 → S.Accepts f) :
    Writes S c (c.complete env f code) := by
  have hended : Writes S c ({ c with inFlight := none }.emit (.ended f.request (.replied code))) :=
    .single (.queue rfl ⟨_, rfl, by simpa using .ended hends⟩)
  unfold complete
  dsimp only
  split
  · rename_i hcode
    exact hended.trans ((onCommandAccepted_writes henv (h hcode)).trans (advanceQueue_writes henv))
  · exact hended.trans (advanceQueue_writes henv)

theorem tryRouteAck_writes (hframe : S.frame frame) (hcode : frame.head? = some code) :
    Writes S c (c.tryRouteAck code frame).2 := by
  unfold tryRouteAck
  split
  · rename_i hack
    dsimp only
    split
    · have herase : Writes S c { c with pendingAcks := c.pendingAcks.erase (slice frame 1 5 (by omega)) } :=
        Writes.queue rfl rfl
      exact herase.tail (.ack _ hframe (hack.1 ▸ hcode))
    · exact .refl
  · exact .refl

theorem refreshOnPush_writes (henv : S.env env) : Writes S c (c.refreshOnPush env code frame) := by
  unfold refreshOnPush
  split
  · rename_i h
    have hpush : Writes S c (c.queueContactRefresh (slice frame 1 33 (by omega))) :=
      pushBack_writes fun t => .internal (Or.inr (Or.inl rfl)) t
    dsimp only
    split
    · exact hpush.trans (advanceQueue_writes henv)
    · exact hpush
  · exact .refl

theorem routeUnmatched_writes (henv : S.env env) (hframe : S.frame frame) (hcode : frame.head? = some code) :
    Writes S c (c.routeUnmatched env code frame) := by
  have hack : Writes S c (c.tryRouteAck code frame).2 := tryRouteAck_writes hframe hcode
  unfold routeUnmatched
  dsimp only
  split
  · exact hack
  · split
    · exact (hack.trans (refreshOnPush_writes henv)).tail (.broadcast hframe)
    · exact hack

theorem routeFrame_writes (henv : S.env env) (hframe : S.frame frame) (hcode : frame.head? = some code)
    (hdone : ∀ f, c.inFlight = some f → S.done f) : Writes S c (c.routeFrame env code frame) := by
  rw [routeFrame_eq]
  split
  · exact routeUnmatched_writes henv hframe hcode
  · rename_i f hslot
    have hdeliver (hmatch : (f.awaiting.classify code).1 = true) : Writes S c (c.deliverReply env f code frame) :=
      deliverReply_writes ⟨hdone f hslot, hframe, code, hcode, hmatch⟩ hcode
    split
    · rename_i hends
      have haccepts (hne : code ≠ 0x01) : S.Accepts f := ⟨hdone f hslot, frame, code, hframe, hcode, hends, hne⟩
      exact (hdeliver (by rw [hends])).trans
        (complete_writes henv ⟨f, frame, hdone f hslot, rfl, hframe, hcode, hends⟩ haccepts)
    · rename_i hpart
      exact (hdeliver (by rw [hpart])).trans (Writes.queue rfl rfl)
    · exact routeUnmatched_writes henv hframe hcode

/-! ### The handlers -/

theorem head?_of_code {payload : Bytes} (hne : payload ≠ []) (h : Command.code ⟨payload, hne⟩ = code) :
    payload.head? = some code := h ▸ List.head?_eq_some_head hne

theorem handleRadioRx_writes (h : c.handleRadioRx env frame = .ok c₁) (henv : S.env env) (hframe : S.frame frame)
    (hdone : ∀ f, c.inFlight = some f → S.done f) : Writes S c c₁ := by
  unfold handleRadioRx at h
  split at h
  · cases h
    exact .refl
  · rename_i code rest
    obtain ⟨-, -, h⟩ := Except.of_bind_eq_ok h
    obtain ⟨c', hc', h⟩ := Except.of_bind_eq_ok h
    cases h
    have hkept : Kept (Effect.Side none) c c' := cacheResponse_kept hc'
    have hraw : Kept (Effect.Side none) c' (c'.recordRaw env code (code :: rest)) := recordRaw_still.toKept
    have hbefore : Writes S c (c'.recordRaw env code (code :: rest)) :=
      .tail (.single (.cache henv hframe rfl hc')) .raw
    exact hbefore.trans (routeFrame_writes henv hframe rfl fun f hslot =>
      hdone f (by rw [← hkept.slot, ← hraw.slot, hslot]))

theorem serveFromRadio_writes {cmd : ClientCommand} (henv : S.env env) (hcmd : S.command cmd) (hne : cmd.payload ≠ []) :
    Writes S c (c.serveFromRadio env cmd ⟨cmd.payload, hne⟩) := by
  have hcached : Writes S c (c.tryServeFromCache env (Command.code ⟨cmd.payload, hne⟩) cmd).2 :=
    .single (.cached henv hcmd hne)
  unfold serveFromRadio
  dsimp only
  split
  · split
    · rename_i hcode
      exact hcached.tail (.notify (Or.inl ⟨cmd, hcmd, head?_of_code hne hcode, rfl⟩))
    · exact hcached
  · exact hcached.trans (enqueueOrDispatch_writes henv fun t => .client hcmd hne t)

/-- `serveCommand` once the session and the version are recorded. -/
def serveIdentified (c : Core) (env : Env) (cmd : ClientCommand) (payload : Command) : Core :=
  if payload.code = 0x0A then
    let (served, c) := c.replayNextMissed env cmd.clientId
    if served then c else c.serveFromRadio env cmd payload
  else c.serveFromRadio env cmd payload

theorem serveCommand_eq {cmd : ClientCommand} {payload : Command} : c.serveCommand env cmd payload =
    ((if payload.code = 0x01 then c.registerSession env cmd else c).recordVersion payload.code cmd).serveIdentified
      env cmd payload := rfl

theorem serveIdentified_writes {cmd : ClientCommand} (henv : S.env env) (hcmd : S.command cmd) (hne : cmd.payload ≠ [])
    (hmissed : cmd.payload.head? = some 0x0A → ∀ id frame, c.nextMissed env cmd.clientId = some (id, frame) →
      S.missed cmd.clientId id frame) :
    Writes S c (c.serveIdentified env cmd ⟨cmd.payload, hne⟩) := by
  unfold serveIdentified
  dsimp only
  split
  · rename_i hcode
    have hreplay : Writes S c (c.replayNextMissed env cmd.clientId).2 :=
      .single (.replay henv hcmd (head?_of_code hne hcode) (hmissed (head?_of_code hne hcode)))
    split
    · exact hreplay
    · exact hreplay.trans (serveFromRadio_writes henv hcmd hne)
  · exact serveFromRadio_writes henv hcmd hne

theorem recordVersion_nextMissed {cmd : ClientCommand} {cid : ClientId} :
    (c.recordVersion code cmd).nextMissed env cid = c.nextMissed env cid := by
  unfold recordVersion
  split
  · split <;> rfl
  · rfl

/-- Before a GET_MSG is replayed a message, nothing has changed what the client missed. -/
theorem identified_nextMissed {cmd : ClientCommand} {cid : ClientId} (hne : cmd.payload ≠ [])
    (hpoll : cmd.payload.head? = some 0x0A) :
    ((if Command.code ⟨cmd.payload, hne⟩ = 0x01 then c.registerSession env cmd else c).recordVersion
      (cmd.payload.head hne) cmd).nextMissed env cid = c.nextMissed env cid := by
  have hcode : Command.code ⟨cmd.payload, hne⟩ ≠ 0x01 := fun h => by
    rw [head?_of_code hne h] at hpoll
    cases hpoll
  rw [recordVersion_nextMissed, if_neg hcode]

theorem serveCommand_writes {cmd : ClientCommand} (henv : S.env env) (hcmd : S.command cmd) (hne : cmd.payload ≠ [])
    (hmissed : ∀ id frame, c.nextMissed env cmd.clientId = some (id, frame) → S.missed cmd.clientId id frame) :
    Writes S c (c.serveCommand env cmd ⟨cmd.payload, hne⟩) := by
  have hregister : Writes S c (if Command.code ⟨cmd.payload, hne⟩ = 0x01 then c.registerSession env cmd else c) :=
    .of_if fun hcode => .single (.register henv hcmd (head?_of_code hne hcode))
  rw [serveCommand_eq]
  refine (hregister.tail (.version hcmd hne)).trans
    (serveIdentified_writes henv hcmd hne fun hpoll id frame hnext => ?_)
  exact hmissed id frame (by rwa [identified_nextMissed hne hpoll] at hnext)

theorem handleClientCommand_writes {cmd : ClientCommand} (h : c.handleClientCommand env cmd = .ok c₁) (henv : S.env env)
    (hcmd : S.command cmd) (hmissed : ∀ id frame, c.nextMissed env cmd.clientId = some (id, frame) →
      S.missed cmd.clientId id frame) : Writes S c c₁ := by
  unfold handleClientCommand at h
  split at h
  · cases h
    exact .refl
  · rename_i hne
    have hlock : Writes S c c.lockClients := .single .lock
    dsimp only at h
    split at h
    · cases h
      exact hlock
    · obtain ⟨-, -, h⟩ := Except.of_bind_eq_ok h
      cases h
      exact hlock.trans (serveCommand_writes henv hcmd hne hmissed)

theorem checkInFlightTimeout_writes (henv : S.env env) : Writes S c (c.checkInFlightTimeout env) := by
  unfold checkInFlightTimeout
  split
  · exact .refl
  · rename_i f _
    split
    · have hfree : Writes S c { c with inFlight := none } := Writes.queue rfl rfl
      exact (hfree.trans failTo_writes).trans ((Writes.ended .timedOut trivial).trans (advanceQueue_writes henv))
    · exact .refl

theorem runMaintenance_writes (hupkeep : S.upkeep) (henv : S.env env) : Writes S c (c.runMaintenance env) := by
  have hpush : Writes S c (c.pushBack none getContacts) := pushBack_writes fun t => .internal (Or.inl rfl) t
  have hresync : Writes S c (c.resync env) := by
    unfold resync
    dsimp only
    split
    · split
      · exact hpush.trans (advanceQueue_writes henv)
      · exact hpush
    · exact .refl
  rw [runMaintenance_eq]
  exact hresync.tail (.maintain hupkeep henv)

/-! ### The link -/

theorem failFrom_writes {qs : List Queued} : Writes S c (c.failFrom qs) := by
  induction qs generalizing c with
  | nil => exact Writes.queue rfl rfl
  | cons q rest ih =>
    have hpop : Writes S c { c with pendingQueue := rest } := Writes.queue rfl rfl
    exact (hpop.trans failTo_writes).trans ((Writes.ended .drained trivial).trans ih)

theorem failAll_writes : Writes S c c.failAll := by
  unfold failAll
  dsimp only
  have hdown : Writes S c { c with radioSendTx := false, radioUp := false } := Writes.queue rfl rfl
  split
  · rename_i f _
    have hfree : Writes S c { { c with radioSendTx := false, radioUp := false } with inFlight := none } :=
      Writes.queue rfl rfl
    exact ((hfree.trans failTo_writes).trans (Writes.ended .linkLost trivial)).trans failFrom_writes
  · exact hdown.trans failFrom_writes

theorem waitForSelfInfo_writes {recv rest : List Recv} {ok : Bool} (h : c.waitForSelfInfo env recv = .ok (ok, rest, c₁))
    (henv : S.env env) (hframe : ∀ p, Recv.frame p ∈ recv → p.head? = some 0x05 → S.frame p) :
    Writes S c c₁ ∧ ∀ r ∈ rest, r ∈ recv := by
  induction recv with
  | nil =>
    cases h
    exact ⟨.refl, fun _ h => h⟩
  | cons r recv ih =>
    cases r with
    | frame payload =>
      rw [waitForSelfInfo] at h
      split at h
      · rename_i hcode
        obtain ⟨c₂, hc₂, h⟩ := Except.of_bind_eq_ok h
        cases h
        exact ⟨.single (.cache henv (hframe _ List.mem_cons_self hcode) hcode hc₂), fun _ => List.mem_cons_of_mem _⟩
      · obtain ⟨-, -, h⟩ := Except.of_bind_eq_ok h
        obtain ⟨hw, hrest⟩ := ih h fun p hp => hframe p (List.mem_cons_of_mem _ hp)
        exact ⟨hw, fun r hr => List.mem_cons_of_mem _ (hrest r hr)⟩
    | closed | deadline | shutdown =>
      cases h
      exact ⟨.refl, fun _ => List.mem_cons_of_mem _⟩

theorem waitForDeviceInfo_writes {recv rest : List Recv} {ok : Bool}
    (h : c.waitForDeviceInfo env recv = .ok (ok, rest, c₁)) (henv : S.env env)
    (hframe : ∀ p, Recv.frame p ∈ recv → p.head? = some 0x0D → S.frame p) : Writes S c c₁ := by
  induction recv with
  | nil =>
    cases h
    exact .refl
  | cons r recv ih =>
    cases r with
    | frame payload =>
      rw [waitForDeviceInfo] at h
      split at h
      · rename_i hcode
        obtain ⟨c₂, hc₂, h⟩ := Except.of_bind_eq_ok h
        cases h
        exact .single (.cache henv (hframe _ List.mem_cons_self hcode) hcode hc₂)
      · split at h
        · cases h
          exact .refl
        · obtain ⟨-, -, h⟩ := Except.of_bind_eq_ok h
          exact ih h fun p hp => hframe p (List.mem_cons_of_mem _ hp)
    | closed | deadline | shutdown =>
      cases h
      exact .refl

/-- A scope that covers a try to connect. -/
structure Scope.Covers (S : Scope) (a : Attempt) : Prop where
  env : S.env a.env
  queryEnv : S.env a.queryEnv
  syncEnv : S.env a.syncEnv
  frame : ∀ p, Recv.frame p ∈ a.recv → p.head? = some 0x05 ∨ p.head? = some 0x0D → S.frame p

theorem initializeRadio_writes {a : Attempt} {ok : Bool} (h : c.initializeRadio a = .ok (ok, c₁)) (ha : S.Covers a) :
    Writes S c c₁ := by
  unfold initializeRadio at h
  split at h
  · cases h
    exact .refl
  · obtain ⟨⟨ok₂, rest, c₂⟩, hc₂, h⟩ := Except.of_bind_eq_ok h
    obtain ⟨hself, hrest⟩ := waitForSelfInfo_writes hc₂ ha.env fun p hp hcode => ha.frame p hp (Or.inl hcode)
    have hbefore : Writes S c c₂ := .head (.init (Or.inl rfl)) hself
    dsimp only at h
    split at h
    · cases h
      exact hbefore
    · split at h
      · cases h
        exact hbefore
      · obtain ⟨⟨ok₃, rest', c₃⟩, hc₃, h⟩ := Except.of_bind_eq_ok h
        cases h
        have hquery : Writes S c₂ (c₂.emit (.radioInit deviceQuery)) := .single (.init (Or.inr rfl))
        exact (hbefore.trans hquery).trans
          (waitForDeviceInfo_writes hc₃ ha.queryEnv fun p hp hcode => ha.frame p (hrest _ hp) (Or.inr hcode))

theorem attemptRadio_writes {a : Attempt} {ok : Bool} (h : c.attemptRadio a = .ok (ok, c₁)) (ha : S.Covers a)
    (hqueue : c.pendingQueue = []) : Writes S c c₁ := by
  unfold attemptRadio at h
  have hup : Writes S c { c with radioSendTx := true } := Writes.queue rfl rfl
  split at h
  · cases h
    exact .refl
  · obtain ⟨⟨ok₂, c₂⟩, hc₂, h⟩ := Except.of_bind_eq_ok h
    have hinit : Writes S c c₂ := hup.trans (initializeRadio_writes hc₂ ha)
    have hstill := initializeRadio_still (t := none) hc₂
    dsimp only at h
    split at h
    · cases h
      exact (hinit.trans (syncFromRadio_writes ha.syncEnv (hstill.queue.trans hqueue))).trans (Writes.queue rfl rfl)
    · cases h
      exact hinit.trans (Writes.queue rfl rfl)

theorem reconnectLoop_writes {attempts : List Attempt} (h : c.reconnectLoop attempts = .ok c₁)
    (ha : ∀ a ∈ attempts, S.Covers a) (hqueue : c.pendingQueue = []) : Writes S c c₁ := by
  induction attempts generalizing c with
  | nil =>
    cases h
    exact .refl
  | cons a rest ih =>
    obtain ⟨⟨ok, c₂⟩, hc₂, h⟩ := Except.of_bind_eq_ok h
    have hattempt := attemptRadio_writes hc₂ (ha a List.mem_cons_self) hqueue
    cases attemptRadio_attempted hc₂ with
    | synced =>
      cases h
      exact hattempt
    | unconnected => exact hattempt.trans (ih h (fun a h => ha a (List.mem_cons_of_mem _ h)) hqueue)
    | uninitialized hstill =>
      exact hattempt.trans (ih h (fun a h => ha a (List.mem_cons_of_mem _ h)) (hstill.queue.trans hqueue))

/-! ### Speaking to clients -/

/-- Nothing changes but what the frontend did, and what was emitted. -/
structure Talks (c c₁ : Core) : Prop where
  onward : c.clients.Onward c₁.clients
  form : ∃ clients out, c₁ = { c with clients := clients, out := out }

theorem Talks.refl : Talks c c := ⟨.refl, _, _, rfl⟩

theorem Talks.trans {c₂ : Core} (h₁ : Talks c c₁) (h₂ : Talks c₁ c₂) : Talks c c₂ := by
  obtain ⟨honward₁, _, _, rfl⟩ := h₁
  obtain ⟨honward₂, clients, out, rfl⟩ := h₂
  exact ⟨honward₁.trans honward₂, clients, out, rfl⟩

theorem Talks.of_if {p : Prop} [Decidable p] (h : p → Talks c c₁) : Talks c (if p then c₁ else c) := by
  split
  · exact h ‹_›
  · exact .refl

theorem lockClients_talks : Talks c c.lockClients := ⟨Clients.lock_onward, _, _, rfl⟩

theorem emit_talks {e : Effect} : Talks c (c.emit e) := ⟨.refl, _, _, rfl⟩

theorem sendToClient_talks {cid : ClientId} {payload : Bytes} {why : Why} : Talks c (c.sendToClient cid payload why) :=
  lockClients_talks.trans (.of_if fun _ => emit_talks)

theorem sendAllToClient_talks {cid : ClientId} {payloads : List Bytes} {why : Why} :
    Talks c (c.sendAllToClient cid payloads why) := by
  unfold sendAllToClient
  induction payloads generalizing c with
  | nil => exact .refl
  | cons payload payloads ih => exact sendToClient_talks.trans ih

theorem broadcastToOthers_talks {exclude : Option ClientId} {payload : Bytes} {why : Why} :
    Talks c (c.broadcastToOthers exclude payload why) := ⟨Clients.lock_onward, _, _, rfl⟩

theorem notifyMissed_talks {cid : ClientId} : Talks c (c.notifyMissed cid) := by
  unfold notifyMissed
  split
  · split
    · exact .refl
    · exact sendToClient_talks
  · exact .refl

theorem serveBlob_talks {cid : ClientId} {blob : Option Bytes} : Talks c (c.serveBlob cid blob).2 := by
  cases blob with
  | none => exact .refl
  | some blob => exact sendToClient_talks

theorem tryServeFromCache_talks {cmd : ClientCommand} : Talks c (c.tryServeFromCache env code cmd).2 := by
  unfold tryServeFromCache
  split
  · exact serveBlob_talks
  · exact serveBlob_talks
  · exact serveBlob_talks
  · split
    · exact sendAllToClient_talks
    · exact .refl
  · dsimp only
    split
    · split
      · exact sendToClient_talks
      · exact .refl
    · exact .refl
  · exact .refl

/-! ### Sending a request -/

/-- What is invalidated as a request is sent: a row of a cached table, or the blobs. -/
theorem invalidate_form (c : Core) (env : Env) (p : Command) : ∃ db self device battery,
    c.invalidate env p = { c with db := db, selfInfoRaw := self, deviceInfoRaw := device, batteryInfoRaw := battery } ∧
      (db = c.db ∨ (∃ key, db = c.db.deleteContact key) ∨ ∃ idx, db = c.db.deleteChannel idx) ∧
      (self = c.selfInfoRaw ∧ device = c.deviceInfoRaw ∧ battery = c.batteryInfoRaw ∨
        self = none ∧ device = none ∧ battery = none) := by
  have hsame (db : NodeState) : c.selfInfoRaw = c.selfInfoRaw ∧ c.deviceInfoRaw = c.deviceInfoRaw ∧
      c.batteryInfoRaw = c.batteryInfoRaw := ⟨rfl, rfl, rfl⟩
  unfold invalidate
  split
  case h_1 =>
    split
    · split
      · exact ⟨_, _, _, _, rfl, Or.inr (Or.inl ⟨_, rfl⟩), Or.inl (hsame c.db)⟩
      · exact ⟨_, _, _, _, rfl, Or.inl rfl, Or.inl (hsame c.db)⟩
    · exact ⟨_, _, _, _, rfl, Or.inl rfl, Or.inl (hsame c.db)⟩
  case h_2 =>
    split
    · split
      · exact ⟨_, _, _, _, rfl, Or.inr (Or.inr ⟨_, rfl⟩), Or.inl (hsame c.db)⟩
      · exact ⟨_, _, _, _, rfl, Or.inl rfl, Or.inl (hsame c.db)⟩
    · exact ⟨_, _, _, _, rfl, Or.inl rfl, Or.inl (hsame c.db)⟩
  case h_11 => exact ⟨_, _, _, _, rfl, Or.inl rfl, Or.inl (hsame c.db)⟩
  all_goals exact ⟨_, _, _, _, rfl, Or.inl rfl, Or.inr ⟨rfl, rfl, rfl⟩⟩

theorem startWith_form (c : Core) (env : Env) (q : Queued) : ∃ db self device battery,
    c.startWith env q = { c with
      db := db
      selfInfoRaw := self
      deviceInfoRaw := device
      batteryInfoRaw := battery
      inFlight := some (c.inFlightOf env q)
      out := c.out ++ [.radio q] } ∧
    (db = c.db ∨ (∃ key, db = c.db.deleteContact key) ∨ ∃ idx, db = c.db.deleteChannel idx) ∧
    (self = c.selfInfoRaw ∧ device = c.deviceInfoRaw ∧ battery = c.batteryInfoRaw ∨
      self = none ∧ device = none ∧ battery = none) := by
  obtain ⟨db, self, device, battery, hform, hdb, hblobs⟩ :=
    invalidate_form (c.emit (.radio q)) env q.payload
  refine ⟨db, self, device, battery, ?_, hdb, hblobs⟩
  simp only [startWith, hform]
  rfl

/-! ### Storing a message -/

/-- Some rows of `clients` have their cursor advanced to `id`. -/
def Raised (id : MessageId) (rows rows' : Table Identity ClientRow) : Prop :=
  ∀ who, rows'.lookup who = rows.lookup who ∨
    ∃ now, rows'.lookup who = some (NodeState.advancedRow now id (rows.lookup who))

theorem Raised.refl {id : MessageId} {rows : Table Identity ClientRow} : Raised id rows rows := fun _ => Or.inl rfl

theorem advancedRow_advancedRow {now now' : Int} {id : MessageId} {row : Option ClientRow} :
    NodeState.advancedRow now' id (some (NodeState.advancedRow now id row)) = NodeState.advancedRow now' id row := by
  cases row <;> simp [NodeState.advancedRow]

theorem Raised.trans {id : MessageId} {rows rows' rows'' : Table Identity ClientRow} (h₁ : Raised id rows rows')
    (h₂ : Raised id rows' rows'') : Raised id rows rows'' := by
  intro who
  rcases h₂ who with h₂ | ⟨now₂, h₂⟩
  · rw [h₂]
    exact h₁ who
  · refine Or.inr ⟨now₂, ?_⟩
    rcases h₁ who with h₁ | ⟨now₁, h₁⟩
    · rw [h₂, h₁]
    · rw [h₂, h₁, advancedRow_advancedRow]

theorem advanceClientCursor_raised (db : NodeState) (now : Int) (who : Identity) (id : MessageId) :
    Raised id db.clients (db.advanceClientCursor now who id).clients := by
  intro who'
  simp only [NodeState.advanceClientCursor, Table.lookup_insert_eq]
  split
  · rename_i heq
    exact Or.inr ⟨now, heq ▸ rfl⟩
  · exact Or.inl rfl

/-- A row whose cursor is at `id`, or above it. -/
def Reaches (id : MessageId) (rows : Table Identity ClientRow) (who : Identity) : Prop :=
  ∃ row, rows.lookup who = some row ∧ id ≤ row.lastSeenId

theorem Reaches.raised {id id' : MessageId} {rows rows' : Table Identity ClientRow} {who : Identity}
    (h : Reaches id rows who) (hraised : Raised id' rows rows') : Reaches id rows' who := by
  obtain ⟨row, hrow, hid⟩ := h
  rcases hraised who with heq | ⟨now, heq⟩
  · exact ⟨row, heq.trans hrow, hid⟩
  · rw [hrow] at heq
    exact ⟨_, heq, le_trans hid (le_max_left _ _)⟩

theorem advanceClientCursor_reaches (db : NodeState) (now : Int) (who : Identity) (id : MessageId) :
    Reaches id (db.advanceClientCursor now who id).clients who := by
  refine ⟨_, by rw [NodeState.advanceClientCursor, Table.lookup_insert_eq, if_pos rfl], ?_⟩
  cases db.clients.lookup who with
  | none => exact le_refl _
  | some row => exact le_max_right _ _

/-- The clients that are caught up follow the head; nothing else changes but what is dropped of those that are gone. -/
theorem followHead_form (c : Core) (env : Env) (id : MessageId) : ∃ rows,
    c.followHead env id = { c.dropGoneSessions with db := { c.db with clients := rows } } ∧
    Raised id c.db.clients rows ∧
      ∀ who ∈ c.dropGoneSessions.caughtUp, env.dbOk (.followHead who) = true → Reaches id rows who := by
  have hfold (l : List Identity) (c₁ : Core) : ∃ rows,
      l.foldl (fun c who => if env.dbOk (.followHead who) then c.advanceClientCursor env who id else c) c₁ =
        { c₁ with db := { c₁.db with clients := rows } } ∧ Raised id c₁.db.clients rows ∧
        ∀ who ∈ l, env.dbOk (.followHead who) = true → Reaches id rows who := by
    induction l generalizing c₁ with
    | nil => exact ⟨_, rfl, .refl, List.forall_mem_nil _⟩
    | cons who l ih =>
      rw [List.foldl_cons]
      split
      · obtain ⟨rows, hform, hraised, hreaches⟩ := ih (c₁.advanceClientCursor env who id)
        refine ⟨rows, hform, (advanceClientCursor_raised c₁.db env.unix who id).trans hraised, fun who' hwho' hok => ?_⟩
        rcases List.mem_cons.mp hwho' with rfl | hwho'
        · exact (advanceClientCursor_reaches c₁.db env.unix who' id).raised hraised
        · exact hreaches who' hwho' hok
      · rename_i hno
        obtain ⟨rows, hform, hraised, hreaches⟩ := ih c₁
        refine ⟨rows, hform, hraised, fun who' hwho' hok => ?_⟩
        rcases List.mem_cons.mp hwho' with rfl | hwho'
        · exact absurd hok hno
        · exact hreaches who' hwho' hok
  exact hfold c.dropGoneSessions.caughtUp c.dropGoneSessions

theorem storeMessage_of_failed {msg : NewMessage} (h : env.dbOk .insertMessage = false) :
    c.storeMessage env msg = c := by
  simp [storeMessage, h]

theorem storeMessage_form (c : Core) (msg : NewMessage) (h : env.dbOk .insertMessage = true) : ∃ rows,
    c.storeMessage env msg = { c.dropGoneSessions with
      db := { c.db.insertMessage env.unix msg with clients := rows }
      out := c.out ++ [.stored (c.db.newRow env.unix msg) c.db.clients.keys] } ∧
    Raised (c.db.messageSeq + 1) c.db.clients rows ∧
    ∀ who ∈ c.dropGoneSessions.caughtUp, env.dbOk (.followHead who) = true →
    Reaches (c.db.messageSeq + 1) rows who := by
  unfold storeMessage
  rw [if_pos h]
  exact followHead_form ({ c with db := c.db.insertMessage env.unix msg }.emit
    (.stored (c.db.newRow env.unix msg) c.db.clients.keys)) env (c.db.newRow env.unix msg).id

/-- What a turn that handles `e` can draw on. -/
def Event.scope (c : Core) : Event → Scope
  | .command env cmd =>
    ⟨(· = env), fun _ => False, (· = cmd), fun cid id frame => c.nextMissed env cid = some (id, frame),
      fun _ => False, False, False⟩
  | .radio env payload => ⟨(· = env), (· = payload), fun _ => False, fun _ _ _ => False,
      (c.inFlight = some ·), False, False⟩
  | .timeoutTick env => ⟨(· = env), fun _ => False, fun _ => False, fun _ _ _ => False, fun _ => False, False, False⟩
  | .maintenanceTick env => ⟨(· = env), fun _ => False, fun _ => False, fun _ _ _ => False, fun _ => False, False, True⟩
  | .disconnected attempts => ⟨fun env => ∃ a ∈ attempts, env = a.env ∨ env = a.queryEnv ∨ env = a.syncEnv,
      fun p => (∃ a ∈ attempts, Recv.frame p ∈ a.recv) ∧ (p.head? = some 0x05 ∨ p.head? = some 0x0D), fun _ => False,
      fun _ _ _ => False, fun _ => False, False, False⟩
  | .idle => ⟨fun _ => False, fun _ => False, fun _ => False, fun _ _ _ => False, fun _ => False, False, False⟩

/-- A turn of the main loop is a chain of writes. -/
theorem handle_writes {e : Event} (h : c.handle e = .ok c₁) : Writes (e.scope c) c c₁ := by
  cases e with
  | command env cmd => exact handleClientCommand_writes h rfl rfl fun _ _ hnext => hnext
  | radio env payload => exact handleRadioRx_writes h rfl rfl fun f hslot => hslot
  | timeoutTick env =>
    cases h
    exact checkInFlightTimeout_writes rfl
  | maintenanceTick env =>
    cases h
    exact runMaintenance_writes trivial rfl
  | disconnected attempts =>
    have hqueue : c.failAll.pendingQueue = [] := (failAll_drain.done_free unlinked_free).2
    refine failAll_writes.trans (reconnectLoop_writes h (fun a ha => ?_) hqueue)
    exact ⟨⟨a, ha, Or.inl rfl⟩, ⟨a, ha, Or.inr (Or.inl rfl)⟩, ⟨a, ha, Or.inr (Or.inr rfl)⟩,
      fun p hp hcode => ⟨⟨a, ha, hp⟩, hcode⟩⟩
  | idle =>
    cases h
    exact .single .lock

/-- What the start of the proxy can draw on. -/
def startScope (env : Env) (attempts : List Attempt) : Scope where
  env env' := env' = env ∨ ∃ a ∈ attempts, env' = a.env ∨ env' = a.queryEnv ∨ env' = a.syncEnv
  frame p := (∃ a ∈ attempts, Recv.frame p ∈ a.recv) ∧ (p.head? = some 0x05 ∨ p.head? = some 0x0D)
  command _ := False
  missed _ _ _ := False
  done _ := False
  startup := True
  upkeep := False

theorem start_writes {config : Config} {db : NodeState} {first : Attempt} {attempts : List Attempt}
    (h : (Core.new config db).start env first attempts = .ok c) :
    Writes (startScope env (first :: attempts)) (Core.new config db) c := by
  have hcovers : ∀ a ∈ first :: attempts, (startScope env (first :: attempts)).Covers a := fun a ha =>
    ⟨Or.inr ⟨a, ha, Or.inl rfl⟩, Or.inr ⟨a, ha, Or.inr (Or.inl rfl)⟩, Or.inr ⟨a, ha, Or.inr (Or.inr rfl)⟩,
      fun p hp hcode => ⟨⟨a, ha, hp⟩, hcode⟩⟩
  obtain ⟨⟨ok, c₁⟩, hfirst, h⟩ := Except.of_bind_eq_ok h
  have h₁ := attemptRadio_writes hfirst (hcovers first List.mem_cons_self) rfl
  dsimp only at h
  split at h
  · exact h₁.tail (.restore trivial (Or.inl rfl) h)
  · obtain ⟨c₂, hreconnect, h⟩ := Except.of_bind_eq_ok h
    have hqueue : c₁.failAll.pendingQueue = [] := (failAll_drain.done_free unlinked_free).2
    have h₂ : Writes (startScope env (first :: attempts)) c₁ c₂ := failAll_writes.trans
      (reconnectLoop_writes hreconnect (fun a ha => hcovers a (List.mem_cons_of_mem _ ha)) hqueue)
    exact (h₁.trans h₂).tail (.restore trivial (Or.inl rfl) h)

end
end Core
end CoreSplitter
