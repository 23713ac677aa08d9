import CoreSplitter.Theorems.Replays
import CoreSplitter.Theorems.Service

/-! What a turn does to the sessions, the cursors and the messages: it identifies a client, replays to one, stores a
    message or purges, one of these at most. -/

namespace CoreSplitter
open Bytes

namespace Core

/-- What a turn does to what a replay depends on; `c` is the core as the turn begins. -/
inductive Deals (c : Core) : Event → Core → Prop
  | register {env : Env} {cmd : ClientCommand} {b c₁ : Core} (alive : cmd.clientId ∈ c.clients.lock.channels)
      (head : cmd.payload.head? = some 0x01) (before : Quiet c b) (after : Quiet (b.registerSession env cmd) c₁)
      (here : cmd.clientId ∈ b.clients.channels) : Deals c (.command env cmd) c₁
  | poll {env : Env} {cmd : ClientCommand} {b c₁ : Core} (alive : cmd.clientId ∈ c.clients.lock.channels)
      (head : cmd.payload.head? = some 0x0A) (before : Quiet c b)
      (after : Quiet (b.replayNextMissed env cmd.clientId).2 c₁) : Deals c (.command env cmd) c₁
  | serve {env : Env} {cmd : ClientCommand} {c₁ : Core} (other : cmd.clientId ∈ c.clients.lock.channels →
      cmd.payload.head? ≠ some 0x01 ∧ cmd.payload.head? ≠ some 0x0A) (same : Quiet c c₁) : Deals c (.command env cmd) c₁
  | store {env : Env} {frame : Bytes} {msg : NewMessage} {b c₁ : Core}
      (source : (∃ code, frame.head? = some code ∧ Scope.fansOut code) ∧ msg.origin = none ∨
        ∃ f, c.inFlight = some f ∧ msg.origin = f.origin)
      (before : Quiet c b) (after : Quiet (b.storeMessage env msg) c₁) : Deals c (.radio env frame) c₁
  | hear {env : Env} {frame : Bytes} {c₁ : Core} (same : Quiet c c₁) : Deals c (.radio env frame) c₁
  | purge {env : Env} {b c₁ : Core} (before : Quiet c b) (after : c₁ = b.maintain env) :
      Deals c (.maintenanceTick env) c₁
  | rest {e : Event} {c₁ : Core} (silent : (∃ env, e = .timeoutTick env) ∨ (∃ attempts, e = .disconnected attempts) ∨
      e = .idle) (same : Quiet c c₁) : Deals c e c₁

section
variable {c c₁ : Core} {env : Env} {cmd : ClientCommand} {f : InFlight} {code : UInt8} {frame : Bytes}
  {frontend : List (List FrontendOp)} {e : Event}

theorem echoAccepted_deals (c : Core) (env : Env) (f : InFlight) :
    Quiet c (c.echoAccepted env f) ∨ ∃ (echo : NewMessage) (b : Core), (f.cmdCode = 0x02 ∨ f.cmdCode = 0x03) ∧
    Quiet c b ∧ c.echoAccepted env f = b.storeMessage env { echo with origin := f.origin } := by
  rcases echoAccepted_cases c env f with heq | ⟨sender, echo, -, hecho, heq⟩
  · rw [heq]
    exact Or.inl .refl
  · exact Or.inr ⟨echo, _, hecho.sends, broadcastToOthers_talks.quiet, heq⟩

/-- Completing a request stores the echo of what its client sent, or nothing. -/
theorem complete_deals (c : Core) (env : Env) (f : InFlight) (code : UInt8) :
    Quiet c (c.complete env f code) ∨ ∃ (echo : NewMessage) (b : Core), (f.cmdCode = 0x02 ∨ f.cmdCode = 0x03) ∧
    Quiet c b ∧ Quiet (b.storeMessage env { echo with origin := f.origin }) (c.complete env f code) := by
  have hended : Quiet c ({ c with inFlight := none }.emit (.ended f.request (.replied code))) := .of_eq rfl rfl
  unfold complete
  dsimp only
  generalize { c with inFlight := none }.emit (.ended f.request (.replied code)) = c₁ at hended
  split
  · have haccepted : Quiet c ((c₁.acceptance f).afterAccepted env f) :=
      (hended.trans acceptance_quiet).trans afterAccepted_quiet
    rw [onCommandAccepted_eq]
    rcases echoAccepted_deals ((c₁.acceptance f).afterAccepted env f) env f with
      hsame | ⟨echo, b, hsend, hb, heq⟩
    · exact Or.inl ((haccepted.trans hsame).trans (advanceQueue_quiet env))
    · refine Or.inr ⟨echo, b, hsend, haccepted.trans hb, ?_⟩
      rw [heq]
      exact advanceQueue_quiet env
  · exact Or.inl (hended.trans (advanceQueue_quiet env))

theorem routeUnmatched_same (hcode : frame.head? = some code) : Quiet c (c.routeUnmatched env code frame) := by
  by_cases hmessage : Scope.fansOut code
  · rw [routeUnmatched_of_message hmessage]
    exact .refl
  · have hwrites : Writes ⟨(· = env), (· = frame), fun _ => False, fun _ _ _ => False, fun _ => False, False, False⟩ c
        (c.routeUnmatched env code frame) := routeUnmatched_writes rfl rfl hcode
    refine hwrites.deaf ⟨fun _ h => h, fun _ h => h, ?_⟩ .refl (fun _ _ h hc => hc.trans h) fun h => h.elim
    rintro frame' code' rfl hcode'
    obtain rfl : code = code' := Option.some.inj (hcode.symm.trans hcode')
    exact hmessage

theorem routeFrame_deals (c : Core) (env : Env) (hcode : frame.head? = some code) :
    Quiet c (c.routeFrame env code frame) ∨
    ∃ (f : InFlight) (echo : NewMessage) (b : Core), c.inFlight = some f ∧ f.awaiting.classify code = (true, true) ∧
      (f.cmdCode = 0x02 ∨ f.cmdCode = 0x03) ∧ Quiet c b ∧
      Quiet (b.storeMessage env { echo with origin := f.origin }) (c.routeFrame env code frame) := by
  have hunmatched : Quiet c (c.routeUnmatched env code frame) := routeUnmatched_same hcode
  rw [routeFrame_eq]
  cases hslot : c.inFlight with
  | none => exact Or.inl hunmatched
  | some f =>
    have hreply : Quiet c (c.deliverReply env f code frame) := deliverReply_quiet
    dsimp only
    rcases hends : f.awaiting.classify code with ⟨_ | _, _ | _⟩ <;> dsimp only
    · exact Or.inl hunmatched
    · exact Or.inl hunmatched
    · exact Or.inl (hreply.trans (.of_eq rfl rfl))
    · rcases complete_deals (c.deliverReply env f code frame) env f code with
        hsame | ⟨echo, b, hsend, hb, hafter⟩
      · exact Or.inl (hreply.trans hsame)
      · exact Or.inr ⟨f, echo, b, rfl, hends, hsend, hreply.trans hb, hafter⟩

/-- A frame of the radio is stored as a message, accepts one, or neither. -/
theorem handleRadioRx_deals (h : c.handleRadioRx env frame = .ok c₁)
    (hawaiting : ∀ f, c.inFlight = some f → f.awaiting = awaitingFor f.payload) :
    Deals c (.radio env frame) c₁ := by
  unfold handleRadioRx at h
  split at h
  · cases h
    exact .hear .refl
  · rename_i code rest
    obtain ⟨-, -, h⟩ := Except.of_bind_eq_ok h
    obtain ⟨c', hcache, h⟩ := Except.of_bind_eq_ok h
    cases h
    have hraw : Quiet c' (c'.recordRaw env code (code :: rest)) := recordRaw_mute.toQuiet
    have hslot : (c'.recordRaw env code (code :: rest)).inFlight = c.inFlight := by
      have hkept : Kept (Effect.Side none) c c' := cacheResponse_kept hcache
      rw [(recordRaw_same c' env code (code :: rest)).1, hkept.slot]
    rcases cacheResponse_cases hcache with hmute | ⟨msg, hlong, -, horigin, rfl⟩
    · have hcached := hmute.toQuiet.trans hraw
      rcases routeFrame_deals (c'.recordRaw env code (code :: rest)) env
          (show (code :: rest).head? = some code from rfl) with
        hsame | ⟨f, echo, b, hf, -, -, hb, hafter⟩
      · exact .hear (hcached.trans hsame)
      · exact .store (Or.inr ⟨f, hslot ▸ hf, rfl⟩) (hcached.trans hb) hafter
    · rcases routeFrame_deals ((c.storeMessage env msg).recordRaw env code (code :: rest)) env
        (show (code :: rest).head? = some code from rfl) with hsame | ⟨f, echo, b, hf, hends, hsend, -⟩
      · exact .store (Or.inl ⟨⟨code, rfl, hlong.fansOut⟩, horigin⟩) .refl (hraw.trans hsame)
      · -- A message accepts no SEND_MSG.
        have hf : c.inFlight = some f := hslot ▸ hf
        rw [hawaiting f hf] at hends
        exact absurd hsend (not_sends_of_fansOut hlong.fansOut hends)

theorem resync_quiet : Quiet c (c.resync env) := by
  have hpush : Quiet c (c.pushBack none getContacts) := .of_eq rfl rfl
  unfold resync
  dsimp only
  split
  · split
    · exact hpush.trans (advanceQueue_quiet env)
    · exact hpush
  · exact .refl

theorem handleClientCommand_deals (hs : c.handleClientCommand env cmd = .ok c₁) : Deals c (.command env cmd) c₁ := by
  have hlock : Quiet c c.lockClients := lockClients_talks.quiet
  unfold handleClientCommand at hs
  split at hs
  · rename_i hempty
    cases hs
    exact .serve (fun _ => by simp [hempty]) .refl
  · rename_i hne
    dsimp only [clientIsAlive] at hs
    cases halive : c.lockClients.clients.channels.contains cmd.clientId with
    | false =>
      rw [halive] at hs
      cases hs
      refine .serve (fun hcid => ?_) hlock
      rw [show c.lockClients.clients.channels.contains cmd.clientId = true
        from List.contains_iff_mem.mpr hcid] at halive
      cases halive
    | true =>
      rw [halive] at hs
      obtain ⟨-, -, hs⟩ := Except.of_bind_eq_ok hs
      cases hs
      have hcid : cmd.clientId ∈ c.clients.lock.channels := List.contains_iff_mem.mp halive
      have hhead : cmd.payload.head? = some (Command.code ⟨cmd.payload, hne⟩) := head?_of_code hne rfl
      rw [serveCommand_eq]
      unfold serveIdentified
      generalize Command.code ⟨cmd.payload, hne⟩ = code at hhead
      by_cases hpoll : code = 0x0A
      · subst hpoll
        rw [if_pos rfl, if_neg (show ¬(0x0A : UInt8) = 0x01 by decide)]
        have hb : Quiet c (c.lockClients.recordVersion 0x0A cmd) := hlock.trans recordVersion_quiet
        refine .poll hcid hhead hb ?_
        dsimp only
        split
        · exact .refl
        · exact serveFromRadio_quiet
      · rw [if_neg hpoll]
        split
        · rename_i hstart
          exact .register hcid (hstart ▸ hhead) hlock (recordVersion_quiet.trans serveFromRadio_quiet) hcid
        · rename_i hstart
          refine .serve (fun _ => ?_) ((hlock.trans recordVersion_quiet).trans serveFromRadio_quiet)
          rw [hhead]
          exact ⟨fun h => hstart (Option.some.inj h), fun h => hpoll (Option.some.inj h)⟩

/-- What a turn does to what a replay depends on. -/
theorem step_deals (hs : c.step frontend e = .ok c₁)
    (hawaiting : ∀ f, c.inFlight = some f → f.awaiting = awaitingFor f.payload) :
    Deals (c.begin frontend) e c₁ := by
  have hdeaf (hradio : ∀ env frame, e ≠ .radio env frame) (hcommand : ∀ env cmd, e ≠ .command env cmd)
      (hupkeep : ∀ env, e ≠ .maintenanceTick env) : Quiet (c.begin frontend) c₁ :=
    (handle_writes hs).deaf (P := Quiet (c.begin frontend)) (scope_deaf hradio hcommand)
      .refl (fun _ _ h hc => hc.trans h) fun hupkeep' => by
      cases e with
      | maintenanceTick env => exact absurd rfl (hupkeep env)
      | command | radio | timeoutTick | disconnected | idle => exact hupkeep'.elim
  cases e with
  | command env cmd => exact handleClientCommand_deals hs
  | radio env frame => exact handleRadioRx_deals hs hawaiting
  | maintenanceTick env =>
    cases hs
    exact .purge resync_quiet rfl
  | timeoutTick env => exact .rest (Or.inl ⟨env, rfl⟩) (hdeaf nofun nofun nofun)
  | disconnected attempts => exact .rest (Or.inr (Or.inl ⟨attempts, rfl⟩)) (hdeaf nofun nofun nofun)
  | idle => exact .rest (Or.inr (Or.inr rfl)) (hdeaf nofun nofun nofun)

/-! ### What a GET_MSG takes -/

variable {cid : ClientId} {s : Session} {id : MessageId}

theorem Quiet.nextMissed (h : Quiet c c₁) : c₁.nextMissed env cid = c.nextMissed env cid := by
  obtain ⟨-, hmessages, -, -, hsessions⟩ := h.fields
  simp only [Core.nextMissed, firstFrame, NodeState.messageFrame, hmessages, hsessions]

theorem Quiet.identityOf (h : Quiet c c₁) : c₁.identityOf cid = c.identityOf cid := by
  obtain ⟨-, -, -, -, hsessions⟩ := h.fields
  rw [Core.identityOf, Core.identityOf, hsessions]

theorem Quiet.caughtUp (h : Quiet c c₁) : c₁.caughtUp = c.caughtUp := by
  obtain ⟨-, -, -, -, hsessions⟩ := h.fields
  rw [Core.caughtUp, Core.caughtUp, hsessions]

theorem Quiet.isCaughtUp (h : Quiet c c₁) : c₁.isCaughtUp cid = c.isCaughtUp cid := by
  obtain ⟨-, -, -, -, hsessions⟩ := h.fields
  rw [Core.isCaughtUp, Core.isCaughtUp, hsessions]

/-- The message is sent, and the rest stays pending. -/
def served (c : Core) (env : Env) (cid : ClientId) (s : Session) (id : MessageId) (frame : Bytes)
    (rest : List MessageId) : Core :=
  let c := (c.setPending cid s rest).sendToClient cid frame (.replay id)
  if env.dbOk .replayAdvance then c.advanceClientCursor env s.identity id else c

theorem setPending_setPending {pending rest : List MessageId} :
    (c.setPending cid s pending).setPending cid s rest = c.setPending cid s rest := by
  simp only [setPending, AList.insert_insert]

theorem firstFrame_cons {rest : List MessageId} : c.firstFrame env (id :: rest) =
    match if env.dbOk (.replayFrame id) then c.db.messageFrame id else none with
    | some frame => some (id, frame)
    | none => c.firstFrame env rest := by
  unfold firstFrame
  split
  · rename_i frame hframe
    split at hframe
    · rename_i hok
      simp [hok, hframe]
    · cases hframe
  · rename_i hframe
    refine List.findSome?_cons_of_isNone ?_
    split at hframe
    · rename_i hok
      rw [if_pos hok, hframe]
      rfl
    · rename_i hok
      rw [if_neg hok]
      rfl

/-- A GET_MSG takes what is pending until it finds a message that is still stored. -/
theorem replayPending_cases (c : Core) (env : Env) (cid : ClientId) (s : Session) (pending : List MessageId) :
    (c.firstFrame env pending = none ∧
      c.replayPending env cid s pending = (false, if pending = [] then c else c.setPending cid s [])) ∨
    ∃ skipped id rest frame, pending = skipped ++ id :: rest ∧ c.firstFrame env skipped = none ∧
      c.firstFrame env pending = some (id, frame) ∧
      c.replayPending env cid s pending = (true, c.served env cid s id frame rest) := by
  induction pending generalizing c with
  | nil => exact Or.inl ⟨rfl, rfl⟩
  | cons id rest ih =>
    rw [firstFrame_cons, replayPending]
    dsimp only
    cases hframe : (if env.dbOk (.replayFrame id) then c.db.messageFrame id else none) with
    | some frame =>
      refine Or.inr ⟨[], id, rest, frame, rfl, rfl, rfl, ?_⟩
      have hpopped : (if env.dbOk (.replayFrame id) then (c.setPending cid s rest).db.messageFrame id else none) =
          some frame := hframe
      rw [hpopped]
      rfl
    | none =>
      have hpopped : (if env.dbOk (.replayFrame id) then (c.setPending cid s rest).db.messageFrame id else none) =
          none := hframe
      rw [hpopped]
      rcases ih (c.setPending cid s rest) with ⟨hnone, heq⟩ | ⟨skipped, id', rest', frame, rfl, hskipped, hfirst, heq⟩
      · refine Or.inl ⟨hnone, heq.trans ?_⟩
        rw [if_neg (List.cons_ne_nil _ _)]
        split
        · rename_i hempty
          rw [hempty]
        · rw [setPending_setPending]
      · refine Or.inr ⟨id :: skipped, id', rest', frame, rfl, ?_, hfirst, heq.trans ?_⟩
        · rw [firstFrame_cons, hframe]
          exact hskipped
        · rw [served, setPending_setPending]
          rfl

theorem served_fields (c : Core) (env : Env) (cid : ClientId) (s : Session) (id : MessageId) (frame : Bytes)
    (rest : List MessageId) : (c.served env cid s id frame rest).config = c.config ∧
    (c.served env cid s id frame rest).db.messages = c.db.messages ∧
    (c.served env cid s id frame rest).db.messageSeq = c.db.messageSeq ∧
    (c.served env cid s id frame rest).sessions = c.sessions.insert cid { s with pending := rest } ∧
    (c.served env cid s id frame rest).db.clients = if env.dbOk .replayAdvance
    then (c.advanceClientCursor env s.identity id).db.clients else c.db.clients := by
  have hsent : Quiet (c.setPending cid s rest) ((c.setPending cid s rest).sendToClient cid frame (.replay id)) :=
    sendToClient_talks.quiet
  obtain ⟨hconfig, hmessages, hseq, hclients, hsessions⟩ := hsent.fields
  unfold served
  dsimp only
  split
  · refine ⟨hconfig, hmessages, hseq, hsessions, ?_⟩
    simp only [advanceClientCursor, NodeState.advanceClientCursor, hclients]
    rfl
  · exact ⟨hconfig, hmessages, hseq, hsessions, hclients⟩

/-! ### Sessions -/

/-- The sessions were there before, with what is left of what was pending. -/
def Drained (t t' : Table ClientId Session) : Prop :=
  ∀ cid s', t'.lookup cid = some s' → ∃ s, t.lookup cid = some s ∧ s.identity = s'.identity ∧ s'.pending <:+ s.pending

variable {t t' t'' : Table ClientId Session}

theorem Drained.refl : Drained t t := fun _ s' hs => ⟨s', hs, rfl, List.suffix_refl _⟩

theorem Drained.trans (h₁ : Drained t t') (h₂ : Drained t' t'') : Drained t t'' := by
  intro cid s₂ hs₂
  obtain ⟨s₁, hs₁, hidentity₁, hpending₁⟩ := h₂ cid s₂ hs₂
  obtain ⟨s, hs, hidentity, hpending⟩ := h₁ cid s₁ hs₁
  exact ⟨s, hs, hidentity.trans hidentity₁, hpending₁.trans hpending⟩

theorem Drained.retain {p : ClientId → Session → Bool} : Drained t (t.retain p) := fun _ s' hs =>
  ⟨s', (Table.lookup_retain_eq_some.mp hs).1, rfl, List.suffix_refl _⟩

theorem Drained.insert {rest : List MessageId} (hs : t.lookup cid = some s) (hrest : rest <:+ s.pending) :
    Drained t (t.insert cid { s with pending := rest }) := by
  intro cid' s' hs'
  rw [Table.lookup_insert_eq] at hs'
  split at hs'
  · rename_i heq
    obtain rfl := Option.some.inj hs'
    exact ⟨s, heq ▸ hs, rfl, hrest⟩
  · exact ⟨s', hs', rfl, List.suffix_refl _⟩

/-- A GET_MSG only takes of what is pending. -/
theorem replayNextMissed_fields (c : Core) (env : Env) (cid : ClientId) :
    (c.replayNextMissed env cid).2.config = c.config ∧
    (c.replayNextMissed env cid).2.db.messages = c.db.messages ∧ (c.replayNextMissed env cid).2.db.messageSeq =
    c.db.messageSeq ∧ Drained c.sessions (c.replayNextMissed env cid).2.sessions := by
  unfold replayNextMissed
  cases hs : c.sessions.lookup cid with
  | none => exact ⟨rfl, rfl, rfl, .refl⟩
  | some s =>
    have hreplay : (c.replayPending env cid s s.pending).2.config = c.config ∧
        (c.replayPending env cid s s.pending).2.db.messages = c.db.messages ∧
        (c.replayPending env cid s s.pending).2.db.messageSeq = c.db.messageSeq ∧
        Drained c.sessions (c.replayPending env cid s s.pending).2.sessions := by
      rcases replayPending_cases c env cid s s.pending with ⟨-, heq⟩ | ⟨skipped, id, rest, frame, hpending, -, -, heq⟩
      · rw [heq]
        dsimp only
        split
        · exact ⟨rfl, rfl, rfl, .refl⟩
        · exact ⟨rfl, rfl, rfl, .insert hs (List.nil_suffix)⟩
      · rw [heq]
        obtain ⟨hconfig, hmessages, hseq, hsessions, -⟩ := served_fields c env cid s id frame rest
        refine ⟨hconfig, hmessages, hseq, ?_⟩
        rw [hsessions]
        exact .insert hs ⟨skipped ++ [id], by simp [hpending]⟩
    dsimp only
    split
    · exact hreplay
    · exact hreplay

theorem storeMessage_cases (c : Core) (env : Env) (msg : NewMessage) :
    env.dbOk .insertMessage = false ∧ c.storeMessage env msg = c ∨
    env.dbOk .insertMessage = true ∧ (c.storeMessage env msg).config = c.config ∧
      (c.storeMessage env msg).db.messages = c.db.messages ++ [c.db.newRow env.unix msg] ∧
      (c.storeMessage env msg).db.messageSeq = c.db.messageSeq + 1 ∧
      (c.storeMessage env msg).sessions = c.dropGoneSessions.sessions := by
  cases hok : env.dbOk .insertMessage with
  | false => exact Or.inl ⟨rfl, if_neg (by simp [hok])⟩
  | true =>
    obtain ⟨rows, hform, -⟩ := storeMessage_form c msg hok
    rw [hform]
    exact Or.inr ⟨rfl, rfl, rfl, rfl, rfl⟩

/-- A session is registered anew, or only drained. -/
theorem Deals.sessions (h : Deals c e c₁) : Drained c.sessions c₁.sessions ∨ ∃ env cmd b, e = .command env cmd ∧
    cmd.clientId ∈ b.clients.channels ∧ Quiet c b ∧ Quiet (b.registerSession env cmd) c₁ := by
  have hquiet {c₁ : Core} (h : Quiet c c₁) : Drained c.sessions c₁.sessions := by
    obtain ⟨-, -, -, -, hsessions⟩ := h.fields
    rw [hsessions]
    exact .refl
  have hthen {b b₁ : Core} (hb : Quiet c b) (hafter : Quiet b₁ c₁) (h : Drained b.sessions b₁.sessions) :
      Drained c.sessions c₁.sessions := by
    obtain ⟨-, -, -, -, hsessions⟩ := hafter.fields
    rw [hsessions]
    exact (hquiet hb).trans h
  cases h with
  | register _ _ hb hafter here => exact Or.inr ⟨_, _, _, rfl, here, hb, hafter⟩
  | poll _ _ hb hafter => exact Or.inl (hthen hb hafter (replayNextMissed_fields _ _ _).2.2.2)
  | serve _ same | hear same | rest _ same => exact Or.inl (hquiet same)
  | @store env frame msg b _ _ hb hafter =>
    refine Or.inl (hthen hb hafter ?_)
    rcases storeMessage_cases b env msg with ⟨-, heq⟩ | ⟨-, -, -, -, hsessions⟩
    · rw [heq]
      exact .refl
    · rw [hsessions]
      exact .retain
  | purge hb hafter =>
    subst hafter
    exact Or.inl (hthen hb .refl .refl)

/-- A message is stored, or some are purged at most. -/
theorem Deals.messages (h : Deals c e c₁) : c₁.db.messages.Sublist c.db.messages ∧ c₁.db.messageSeq = c.db.messageSeq ∨
    ∃ env frame msg,
    e = .radio env frame ∧ ((∃ code, frame.head? = some code ∧ Scope.fansOut code) ∧ msg.origin = none ∨
        ∃ f, c.inFlight = some f ∧ msg.origin = f.origin) ∧
      c₁.db.messages = c.db.messages ++ [c.db.newRow env.unix msg] ∧ c₁.db.messageSeq = c.db.messageSeq + 1 := by
  have hquiet {b : Core} (h : Quiet c b) : b.db.messages.Sublist c.db.messages ∧ b.db.messageSeq = c.db.messageSeq := by
    obtain ⟨-, hmessages, hseq, -, -⟩ := h.fields
    exact ⟨hmessages ▸ List.Sublist.refl _, hseq⟩
  have hthen {b b₁ : Core} (hb : Quiet c b) (hafter : Quiet b₁ c₁) (hmessages : b₁.db.messages = b.db.messages)
      (hseq : b₁.db.messageSeq = b.db.messageSeq) : c₁.db.messages.Sublist c.db.messages ∧
      c₁.db.messageSeq = c.db.messageSeq := by
    obtain ⟨-, hmessages', hseq', -, -⟩ := hafter.fields
    rw [hmessages', hseq', hmessages, hseq]
    exact hquiet hb
  cases h with
  | register _ _ hb hafter =>
    refine Or.inl (hthen hb hafter ?_ ?_)
    · unfold registerSession
      dsimp only
      split <;> rfl
    · unfold registerSession
      dsimp only
      split <;> rfl
  | poll _ _ hb hafter =>
    obtain ⟨-, hmessages, hseq, -⟩ := replayNextMissed_fields _ _ _
    exact Or.inl (hthen hb hafter hmessages hseq)
  | serve _ same | hear same | rest _ same => exact Or.inl (hquiet same)
  | @store env frame msg b _ source hb hafter =>
    rcases storeMessage_cases b env msg with ⟨-, heq⟩ | ⟨-, -, hmessages, hseq, -⟩
    · rw [heq] at hafter
      exact Or.inl (hquiet (hb.trans hafter))
    · obtain ⟨-, hmessages₁, hseq₁, -, -⟩ := hafter.fields
      obtain ⟨-, hmessages₀, hseq₀, -, -⟩ := hb.fields
      refine Or.inr ⟨env, frame, msg, rfl, source, ?_, ?_⟩
      · rw [hmessages₁, hmessages, hmessages₀, NodeState.newRow, hseq₀]
        rfl
      · rw [hseq₁, hseq, hseq₀]
  | purge hb hafter =>
    subst hafter
    obtain ⟨hmessages, hseq⟩ := hquiet hb
    exact Or.inl ⟨(maintain_purged _ _).messages.trans hmessages, (maintain_purged _ _).seq.trans hseq⟩

theorem registerSession_sessions : (c.registerSession env cmd).sessions =
    c.sessions.insert cmd.clientId ⟨cmd.localPort, appNameOf cmd.payload,
      c.missedBy env (cmd.localPort, appNameOf cmd.payload)⟩ := by
  unfold registerSession
  dsimp only
  split <;> rfl

theorem registerSession_clients : (c.registerSession env cmd).clients = c.clients := by
  unfold registerSession
  dsimp only
  split <;> rfl

theorem replayNextMissed_onward (c : Core) (env : Env) (cid : ClientId) :
    c.clients.Onward (c.replayNextMissed env cid).2.clients := by
  have hreplay (s : Session) : c.clients.Onward (c.replayPending env cid s s.pending).2.clients := by
    rcases replayPending_cases c env cid s s.pending with ⟨-, heq⟩ | ⟨skipped, id, rest, frame, -, -, -, heq⟩
    · rw [heq]
      dsimp only
      split <;> exact .refl
    · have hsent : Quiet (c.setPending cid s rest) ((c.setPending cid s rest).sendToClient cid frame (.replay id)) :=
        sendToClient_talks.quiet
      rw [heq, served]
      dsimp only
      split
      · exact hsent.onward
      · exact hsent.onward
  unfold replayNextMissed
  split
  · exact .refl
  · rename_i s _
    dsimp only
    split
    · exact hreplay s
    · exact hreplay s

theorem storeMessage_clients {msg : NewMessage} (hok : env.dbOk .insertMessage = true) :
    (c.storeMessage env msg).clients = c.clients.lock := by
  obtain ⟨rows, hform, -⟩ := storeMessage_form c msg hok
  rw [hform]
  rfl

theorem Deals.onward (h : Deals c e c₁) : c.clients.Onward c₁.clients := by
  cases h with
  | @register env cmd b _ _ _ hb hafter => exact (hb.onward.trans (registerSession_clients ▸ .refl)).trans hafter.onward
  | @poll env cmd b _ _ _ hb hafter =>
    exact (hb.onward.trans (replayNextMissed_onward b env cmd.clientId)).trans hafter.onward
  | serve _ same | hear same | rest _ same => exact same.onward
  | @store env frame msg b _ _ hb hafter =>
    refine (hb.onward.trans ?_).trans hafter.onward
    rcases storeMessage_cases b env msg with ⟨-, heq⟩ | ⟨hok, -⟩
    · rw [heq]
      exact .refl
    · rw [storeMessage_clients hok]
      exact Clients.lock_onward
  | @purge env b _ hb hafter =>
    subst hafter
    exact hb.onward

/-- What a GET_MSG takes of what is pending, and what it leaves. -/
def Pops (c : Core) (env : Env) (pending : List MessageId) (taken : Option MessageId) (rest : List MessageId) : Prop :=
  c.firstFrame env pending = none ∧ taken = none ∧ rest = [] ∨
    ∃ skipped id frame, pending = skipped ++ id :: rest ∧ taken = some id ∧ c.firstFrame env skipped = none ∧
      c.firstFrame env pending = some (id, frame)

theorem Quiet.pops {pending rest : List MessageId} {taken : Option MessageId} (h : Quiet c c₁)
    (ht : c₁.Pops env pending taken rest) : c.Pops env pending taken rest := by
  obtain ⟨-, hmessages, -, -, -⟩ := h.fields
  have hsame : c₁.firstFrame env = c.firstFrame env := by
    funext pending
    simp only [firstFrame, NodeState.messageFrame, hmessages]
  simpa only [Pops, hsame] using ht

theorem advanceClientCursor_reaches_iff {who : Identity} {n : MessageId} :
    Reaches id (c.advanceClientCursor env who n).db.clients who ↔ Reaches id c.db.clients who ∨ id ≤ n := by
  simp only [Reaches, advanceClientCursor, NodeState.advanceClientCursor, Table.lookup_insert_eq, if_true,
    Option.some_inj, exists_eq_left']
  cases c.db.clients.lookup who with
  | none => simp [NodeState.advancedRow]
  | some row => simp [NodeState.advancedRow]

/-- A GET_MSG takes the first message that is pending and can be read. Its cursor moves to that, and to the last
    message of all once nothing is pending. -/
theorem replayNextMissed_pops (c : Core) (env : Env) (cid : ClientId) :
    c.sessions.lookup cid = none ∧ (c.replayNextMissed env cid).2 = c ∨
    ∃ s taken rest, c.sessions.lookup cid = some s ∧ c.Pops env s.pending taken rest ∧
      (∀ cid', (c.replayNextMissed env cid).2.sessions.lookup cid' = if cid' = cid
        then some { s with pending := rest } else c.sessions.lookup cid') ∧
      ∀ id, Reaches id (c.replayNextMissed env cid).2.db.clients s.identity ↔ Reaches id c.db.clients s.identity ∨
        env.dbOk .replayAdvance = true ∧ (∃ id', taken = some id' ∧ id ≤ id') ∨
        env.dbOk .replayHead = true ∧ env.dbOk .replayCatchUp = true ∧ rest = [] ∧ id ≤ c.db.messageHead := by
  unfold replayNextMissed
  cases hs : c.sessions.lookup cid with
  | none => exact Or.inl ⟨rfl, rfl⟩
  | some s =>
    have hreplay : ∃ taken rest, c.Pops env s.pending taken rest ∧
        (∀ cid', (c.replayPending env cid s s.pending).2.sessions.lookup cid' =
        if cid' = cid then some { s with pending := rest } else c.sessions.lookup cid') ∧
        (c.replayPending env cid s s.pending).2.db.messages = c.db.messages ∧
        ∀ id, Reaches id (c.replayPending env cid s s.pending).2.db.clients s.identity ↔
        Reaches id c.db.clients s.identity ∨
          env.dbOk .replayAdvance = true ∧ ∃ id', taken = some id' ∧ id ≤ id' := by
      rcases replayPending_cases c env cid s s.pending with ⟨hnone, heq⟩ |
        ⟨skipped, id, rest, frame, hpending, hskipped, hfirst, heq⟩
      · refine ⟨none, [], Or.inl ⟨hnone, rfl, rfl⟩, fun cid' => ?_, ?_, fun id => ?_⟩
        · rw [heq]
          dsimp only
          split
          · rename_i hempty
            split
            · rename_i hcid
              rw [hcid, hs, ← hempty]
            · rfl
          · exact Table.lookup_insert_eq
        · rw [heq]
          dsimp only
          split <;> rfl
        · rw [heq]
          dsimp only
          split <;> simp [setPending]
      · obtain ⟨-, hmessages, -, hsessions, hclients⟩ := served_fields c env cid s id frame rest
        refine ⟨some id, rest, Or.inr ⟨skipped, id, frame, hpending, rfl, hskipped, hfirst⟩, fun cid' => ?_, ?_,
          fun id' => ?_⟩
        · rw [heq, hsessions]
          exact Table.lookup_insert_eq
        · rw [heq, hmessages]
        · rw [heq, hclients]
          split
          · rename_i hok
            simp [advanceClientCursor_reaches_iff, hok]
          · rename_i hok
            simp [hok]
    obtain ⟨taken, rest, hpops, hsessions, hmessages, hreaches⟩ := hreplay
    dsimp only
    generalize (c.replayPending env cid s s.pending).2 = c₁ at hsessions hmessages hreaches
    have hcaught : c₁.isCaughtUp cid = rest.isEmpty := by
      rw [isCaughtUp, hsessions, if_pos rfl]
      rfl
    have hhead : c₁.db.messageHead = c.db.messageHead := by rw [NodeState.messageHead, NodeState.messageHead, hmessages]
    refine Or.inr ⟨s, taken, rest, rfl, hpops, fun cid' => ?_, fun id => ?_⟩
    · rw [← hsessions cid']
      split <;> rfl
    · rw [← or_assoc, ← hreaches id]
      split
      · rename_i hok
        simp only [hcaught, Bool.and_eq_true, List.isEmpty_iff] at hok
        rw [advanceClientCursor_reaches_iff, hhead]
        simp [hok]
      · rename_i hok
        simp only [hcaught, Bool.and_eq_true, List.isEmpty_iff] at hok
        exact (or_iff_left fun h => hok ⟨⟨h.2.2.1, h.1⟩, h.2.1⟩).symm

/-- The session of a connection that stays: it is registered anew, or drained by a GET_MSG of its own, or the same. -/
theorem Deals.session (h : Deals c e c₁) (hborn : ∀ s, c.sessions.lookup cid = some s → cid < c.clients.nextId)
    (hcid : cid ∈ c₁.clients.channels) :
    (∃ env cmd, e = .command env cmd ∧ cmd.clientId = cid ∧ cmd.payload.head? = some 0x01 ∧
      cid ∈ c.clients.lock.channels ∧
      c₁.sessions.lookup cid = some ⟨cmd.localPort, appNameOf cmd.payload,
        c.missedBy env (cmd.localPort, appNameOf cmd.payload)⟩) ∨
    (∃ env cmd s taken rest, e = .command env cmd ∧ cmd.clientId = cid ∧ cmd.payload.head? = some 0x0A ∧
      cid ∈ c.clients.lock.channels ∧
      c.sessions.lookup cid = some s ∧ c.Pops env s.pending taken rest ∧
      c₁.sessions.lookup cid = some { s with pending := rest }) ∨
    c₁.sessions.lookup cid = c.sessions.lookup cid ∧ ∀ env cmd, e = .command env cmd → cmd.clientId = cid →
    cid ∈ c.clients.lock.channels →
      cmd.payload.head? ≠ some 0x01 ∧ (cmd.payload.head? = some 0x0A → c.sessions.lookup cid = none) := by
  have hquiet {b : Core} (h : Quiet c b) : b.sessions.lookup cid = c.sessions.lookup cid := by
    obtain ⟨-, -, -, -, hsessions⟩ := h.fields
    rw [hsessions]
  have hafter' {b : Core} (h : Quiet b c₁) : c₁.sessions.lookup cid = b.sessions.lookup cid := by
    obtain ⟨-, -, -, -, hsessions⟩ := h.fields
    rw [hsessions]
  cases h with
  | @register env cmd b _ alive head hb hafter =>
    have hmissed : b.missedBy env (cmd.localPort, appNameOf cmd.payload) =
        c.missedBy env (cmd.localPort, appNameOf cmd.payload) := by
      obtain ⟨hconfig, hmessages, -, hclients, -⟩ := hb.fields
      simp only [missedBy, NodeState.clientCursor, NodeState.messageIdsAfter, NodeState.backlogMessageIds, hconfig,
        hmessages, hclients]
    have hlookup : c₁.sessions.lookup cid = if cid = cmd.clientId then
        some ⟨cmd.localPort, appNameOf cmd.payload, c.missedBy env (cmd.localPort, appNameOf cmd.payload)⟩
          else b.sessions.lookup cid := by
      rw [hafter' hafter, registerSession_sessions, Table.lookup_insert_eq, hmissed]
    by_cases hown : cid = cmd.clientId
    · rw [if_pos hown] at hlookup
      exact Or.inl ⟨env, cmd, rfl, hown.symm, head, hown ▸ alive, hlookup⟩
    · rw [if_neg hown, hquiet hb] at hlookup
      refine Or.inr (Or.inr ⟨hlookup, fun env' cmd' he hcmd => ?_⟩)
      cases he
      exact absurd hcmd.symm hown
  | @poll env cmd b _ alive head hb hafter =>
    rw [hafter' hafter]
    rcases replayNextMissed_pops b env cmd.clientId with ⟨hnone, hsame⟩ | ⟨s, taken, rest, hs, hpops, hsessions, -⟩
    · rw [hsame, hquiet hb]
      refine Or.inr (Or.inr ⟨rfl, fun env' cmd' he hcmd _ => ?_⟩)
      cases he
      subst hcmd
      exact ⟨by rw [head]; decide, fun _ => hquiet hb ▸ hnone⟩
    · rw [hsessions]
      split
      · rename_i hown
        subst hown
        exact Or.inr (Or.inl ⟨env, cmd, s, taken, rest, rfl, rfl, head, alive, hquiet hb ▸ hs, hb.pops hpops, rfl⟩)
      · rename_i hown
        refine Or.inr (Or.inr ⟨hquiet hb, fun env' cmd' he hcmd => ?_⟩)
        cases he
        exact absurd hcmd.symm hown
  | serve other same =>
    refine Or.inr (Or.inr ⟨hquiet same, fun env' cmd' he hcmd halive => ?_⟩)
    cases he
    obtain ⟨hstart, hpoll⟩ := other (hcmd ▸ halive)
    exact ⟨hstart, fun h => absurd h hpoll⟩
  | hear same => exact Or.inr (Or.inr ⟨hquiet same, fun _ _ he => by cases he⟩)
  | rest silent same =>
    refine Or.inr (Or.inr ⟨hquiet same, fun _ _ he => ?_⟩)
    rcases silent with ⟨_, rfl⟩ | ⟨_, rfl⟩ | rfl <;> cases he
  | @store env frame msg b _ _ hb hafter =>
    refine Or.inr (Or.inr ⟨?_, fun _ _ he => by cases he⟩)
    rw [hafter' hafter]
    rcases storeMessage_cases b env msg with ⟨-, heq⟩ | ⟨hok, -, -, -, hsessions⟩
    · rw [heq, hquiet hb]
    · have hretain : b.dropGoneSessions.sessions.lookup cid = (b.sessions.lookup cid).filter fun _ =>
          b.clients.lock.channels.contains cid :=
        Table.lookup_retain
      rw [hsessions, hretain, hquiet hb]
      cases hs : c.sessions.lookup cid with
      | none => rfl
      | some s =>
        -- The connection was there when the message was stored.
        have hlocked : cid ∈ b.clients.lock.channels := by
          rw [← storeMessage_clients hok]
          have hlater : c.clients.Later (b.storeMessage env msg).clients :=
            (hb.onward.trans (storeMessage_clients hok ▸ Clients.lock_onward)).later
          exact hafter.onward.later.old cid hcid (Nat.lt_of_lt_of_le (hborn s hs) hlater.nextId)
        exact Option.filter_eq_some_iff.mpr ⟨rfl, List.contains_iff_mem.mpr hlocked⟩
  | @purge env b _ hb hafter =>
    subst hafter
    have hsame : b.sessions.lookup cid = c.sessions.lookup cid := hquiet hb
    exact Or.inr (Or.inr ⟨hsame, fun _ _ he => by cases he⟩)

end
end Core
end CoreSplitter
