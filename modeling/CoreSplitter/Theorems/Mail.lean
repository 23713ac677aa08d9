import CoreSplitter.Theorems.Echoes

/-! What is stored for the clients and how far each has seen it: the messages, the cursors and what is pending. And
    what a frame of the radio does to it. -/

namespace CoreSplitter
open Bytes

/-- A frame of a message that goes to a client as it arrives, or as its sender is answered. -/
def liveCopy : Effect → Option (ClientId × UInt8 × Bytes)
  | .client cid _ version frame (.reply _) => some (cid, version, frame)
  | .client cid _ version frame (.fanout _) => some (cid, version, frame)
  | .client cid _ version frame (.echo _) => some (cid, version, frame)
  | _ => none

/-- What is copied to a client, in the layout it asked for. -/
def copyFor (v : ClientId → UInt8) (payload : Bytes) (cid : ClientId) : ClientId × UInt8 × Bytes :=
  (cid, v cid, messageFrameFor (v cid) payload)

/-- Who gets the reply to a request: its client, if still connected, and the others when it polls a message. -/
def InFlight.hearers (f : InFlight) (clients : Clients) (code : UInt8) : List ClientId :=
  (f.clientId.toList.filter fun cid => clients.lock.channels.contains cid) ++
    if f.cmdCode = 0x0A ∧ Core.Scope.fansOut code then
      (if f.clientId.isSome then clients.lock.lock else clients.lock).channels.filter fun cid => f.clientId != some cid
    else []

namespace Core

/-- What a replay depends on. -/
def mail (c : Core) := (c.config, c.db.messages, c.db.messageSeq, c.db.clients, c.sessions)

/-- Nothing that a replay depends on changes, but clients come and go. -/
structure Quiet (c c₁ : Core) : Prop where
  mail : c₁.mail = c.mail
  onward : c.clients.Onward c₁.clients

/-- Nothing is emitted either. -/
structure Mute (c c₁ : Core) : Prop extends Quiet c c₁ where
  out : c₁.out = c.out

section
variable {S : Scope} {c c₁ c₂ : Core} {env : Env} {f : InFlight} {code : UInt8} {frame : Bytes}

theorem Quiet.refl : Quiet c c := ⟨rfl, .refl⟩

theorem Quiet.trans (h₁ : Quiet c c₁) (h₂ : Quiet c₁ c₂) : Quiet c c₂ :=
  ⟨h₂.mail.trans h₁.mail, h₁.onward.trans h₂.onward⟩

theorem Quiet.of_eq (hmail : c₁.mail = c.mail) (hclients : c₁.clients = c.clients) : Quiet c c₁ :=
  ⟨hmail, hclients ▸ .refl⟩

theorem Quiet.of_if {p : Prop} [Decidable p] (h : p → Quiet c c₁) : Quiet c (if p then c₁ else c) := by
  split
  · exact h ‹_›
  · exact .refl

theorem Mute.refl : Mute c c := ⟨.refl, rfl⟩

theorem Mute.trans (h₁ : Mute c c₁) (h₂ : Mute c₁ c₂) : Mute c c₂ := ⟨h₁.toQuiet.trans h₂.toQuiet, h₂.out.trans h₁.out⟩

theorem Mute.of_eq (hmail : c₁.mail = c.mail) (hclients : c₁.clients = c.clients) (hout : c₁.out = c.out) : Mute c c₁ :=
  ⟨.of_eq hmail hclients, hout⟩

theorem Mute.of_if {p : Prop} [Decidable p] (h : p → Mute c c₁) : Mute c (if p then c₁ else c) := by
  split
  · exact h ‹_›
  · exact .refl

theorem Talks.quiet (h : Talks c c₁) : Quiet c c₁ := by
  obtain ⟨honward, _, _, rfl⟩ := h
  exact ⟨rfl, honward⟩

/-! ### Requests -/

theorem startWith_quiet {r : Queued} : Quiet c (c.startWith env r) := by
  obtain ⟨db, self, device, battery, hform, hdb, -⟩ := startWith_form c env r
  rw [hform]
  refine .of_eq ?_ rfl
  rcases hdb with rfl | ⟨_, rfl⟩ | ⟨_, rfl⟩ <;> rfl

theorem failTo_talks {r : Queued} : Talks c (c.failTo r) := by
  unfold failTo
  split
  · exact sendToClient_talks
  · exact .refl

theorem dispatchToRadio_quiet {r : Queued} : Quiet c (c.dispatchToRadio env r) := by
  rw [dispatchToRadio_eq]
  split
  · exact startWith_quiet
  · exact (failTo_talks.trans emit_talks).quiet

theorem enqueueOrDispatch_quiet {clientId : Option ClientId} {p : Command} :
    Quiet c (c.enqueueOrDispatch env clientId p) := by
  unfold enqueueOrDispatch
  split
  · have hhand : Quiet c (c.hand clientId p).2 := .of_eq rfl rfl
    exact hhand.trans dispatchToRadio_quiet
  · exact .of_eq rfl rfl

theorem serveFromRadio_quiet {cmd : ClientCommand} {p : Command} : Quiet c (c.serveFromRadio env cmd p) := by
  have hcached : Talks c (c.tryServeFromCache env p.code cmd).2 := tryServeFromCache_talks
  unfold serveFromRadio
  dsimp only
  split
  · split
    · exact (hcached.trans notifyMissed_talks).quiet
    · exact hcached.quiet
  · exact hcached.quiet.trans enqueueOrDispatch_quiet

theorem recordVersion_quiet {cmd : ClientCommand} : Quiet c (c.recordVersion code cmd) := by
  unfold recordVersion
  split
  · exact .of_if fun _ => .of_eq rfl rfl
  · exact .refl

/-! ### Frames of the radio -/

theorem recordAck_quiet {cid : ClientId} {t : Ticket} : Quiet c (c.recordAck env cid t code frame) := by
  unfold recordAck
  dsimp only
  split
  · exact .of_eq rfl rfl
  · exact .refl

theorem deliverReply_quiet : Quiet c (c.deliverReply env f code frame) := by
  have hreply : Quiet c (c.replyToClient env f code frame) := by
    unfold replyToClient
    split
    · exact recordAck_quiet.trans sendToClient_talks.quiet
    · exact .refl
  rw [deliverReply_eq]
  split
  · exact hreply.trans broadcastToOthers_talks.quiet
  · exact hreply

theorem acceptance_quiet : Quiet c (c.acceptance f) := by
  have haccepted : Talks c (c.emit (.accepted f.request)) := emit_talks
  unfold acceptance
  dsimp only
  split
  · split
    · exact (haccepted.trans notifyMissed_talks).quiet
    · exact haccepted.quiet
  · exact haccepted.quiet

theorem afterAccepted_quiet : Quiet c (c.afterAccepted env f) := by
  unfold afterAccepted
  dsimp only
  split
  · split
    · exact .of_if fun _ => .of_eq rfl rfl
    · exact .refl
  · split
    · exact .of_eq rfl rfl
    · exact .refl
  · split
    · exact .of_eq rfl rfl
    · exact .refl
  · exact .of_eq rfl rfl
  · exact .of_eq rfl rfl
  · exact .refl

theorem recordRaw_mute : Mute c (c.recordRaw env code frame) := .of_if fun _ => .of_eq rfl rfl rfl

theorem kvSet_mute {key : KvKey} {value : Bytes} : Mute c (c.kvSet env key value) := .of_if fun _ => .of_eq rfl rfl rfl

theorem extractRadioIdentity_mute {blob : Bytes} (h : c.extractRadioIdentity blob = .ok c₁) : Mute c c₁ := by
  obtain ⟨d, -, h⟩ := Except.of_bind_eq_ok h
  have hkey : Mute c (if h : 36 ≤ blob.length then
      { c with radioPubkey := some ⟨slice blob 4 36 ⟨by omega, h⟩, by simp⟩ } else c) := by
    split
    · exact .of_eq rfl rfl rfl
    · exact .refl
  split at h <;> cases h
  · exact hkey.trans (.of_eq rfl rfl rfl)
  · exact hkey

theorem extractMaxChannels_mute {blob : Bytes} (h : c.extractMaxChannels blob = .ok c₁) : Mute c c₁ := by
  obtain ⟨d, -, h⟩ := Except.of_bind_eq_ok h
  split at h <;> cases h
  · exact .of_if fun _ => .of_eq rfl rfl rfl
  · exact .refl

/-- A message that is long enough to be stored. -/
def Storable (code : UInt8) (frame : Bytes) : Prop :=
  code = 0x07 ∧ 13 ≤ frame.length ∨ code = 0x08 ∧ 9 ≤ frame.length ∨ code = 0x10 ∧ 16 ≤ frame.length ∨
    code = 0x11 ∧ 11 ≤ frame.length

theorem Storable.fansOut (h : Storable code frame) : Scope.fansOut code :=
  h.imp And.left fun h => h.imp And.left fun h => h.imp And.left And.left

/-- A frame of the radio is stored as a message, or changes nothing that a replay depends on. -/
theorem cacheResponse_cases (h : c.cacheResponse env code frame = .ok c₁) : Mute c c₁ ∨
    ∃ msg, Storable code frame ∧ msg.frame = frame ∧ msg.origin = none ∧ c₁ = c.storeMessage env msg := by
  unfold cacheResponse at h
  split at h
  · cases h
    left
    split
    · exact .of_if fun _ => .of_eq rfl rfl rfl
    · exact .refl
  · obtain ⟨c₂, hc₂, h⟩ := Except.of_bind_eq_ok h
    cases h
    exact Or.inl ((kvSet_mute.trans (extractRadioIdentity_mute hc₂)).trans (.of_eq rfl rfl rfl))
  · cases h
    exact Or.inl (kvSet_mute.trans (.of_eq rfl rfl rfl))
  · obtain ⟨c₂, hc₂, h⟩ := Except.of_bind_eq_ok h
    cases h
    exact Or.inl ((kvSet_mute.trans (extractMaxChannels_mute hc₂)).trans (.of_eq rfl rfl rfl))
  · obtain ⟨d, hd, h⟩ := Except.of_bind_eq_ok h
    split at h <;> cases h
    · exact Or.inr ⟨_, Or.inl ⟨rfl, decodeResponsePayload_guarded rfl hd⟩, rfl, rfl, rfl⟩
    · exact Or.inl .refl
  · obtain ⟨d, hd, h⟩ := Except.of_bind_eq_ok h
    split at h <;> cases h
    · exact Or.inr ⟨_, Or.inr (Or.inl ⟨rfl, decodeResponsePayload_guarded rfl hd⟩), rfl, rfl, rfl⟩
    · exact Or.inl .refl
  · cases h
    split
    · rename_i hlen
      exact Or.inr ⟨_, Or.inr (Or.inr (Or.inl ⟨rfl, hlen⟩)), rfl, rfl, rfl⟩
    · exact Or.inl .refl
  · cases h
    split
    · rename_i hlen
      exact Or.inr ⟨_, Or.inr (Or.inr (Or.inr ⟨rfl, hlen⟩)), rfl, rfl, rfl⟩
    · exact Or.inl .refl
  · cases h
    left
    split
    · exact .of_if fun _ => .of_eq rfl rfl rfl
    · exact .refl
  · cases h
    exact Or.inl .refl

theorem restoreBlobs_mute (h : c.restoreBlobs env = .ok c₁) : Mute c c₁ := by
  obtain ⟨c₂, hc₂, h⟩ := Except.of_bind_eq_ok h
  obtain ⟨c₃, hc₃, h⟩ := Except.of_bind_eq_ok h
  cases h
  have h₂ : Mute c c₂ := by
    unfold restoreSelfInfo at hc₂
    split at hc₂
    · obtain ⟨c', hc', h⟩ := Except.of_bind_eq_ok hc₂
      cases h
      exact (extractRadioIdentity_mute hc').trans (.of_eq rfl rfl rfl)
    · cases hc₂
      exact .refl
  have h₃ : Mute c₂ c₃ := by
    unfold restoreDeviceInfo at hc₃
    split at hc₃
    · obtain ⟨c', hc', h⟩ := Except.of_bind_eq_ok hc₃
      cases h
      exact (extractMaxChannels_mute hc').trans (.of_eq rfl rfl rfl)
    · cases hc₃
      exact .refl
  refine (h₂.trans h₃).trans ?_
  unfold restoreBatteryInfo
  split
  · exact .of_eq rfl rfl rfl
  · exact .refl

/-! ### Turns that hear nothing -/

/-- A turn without a command of a client, and without a frame of the radio that would be stored or would complete a
    request. -/
structure Scope.Deaf (S : Scope) : Prop where
  command : ∀ cmd, ¬S.command cmd
  done : ∀ f, ¬S.done f
  frame : ∀ frame code, S.frame frame → frame.head? = some code → ¬Scope.fansOut code

theorem Write.deaf (hw : Write S c c₁) (hdeaf : S.Deaf) :
    Quiet c c₁ ∨ S.upkeep ∧ ∃ env, S.env env ∧ c₁ = c.maintain env := by
  cases hw with
  | queue hmemory =>
    simp only [memory, Prod.mk.injEq] at hmemory
    obtain ⟨hconfig, hdb, -, -, -, -, -, -, hclients, hsessions, -⟩ := hmemory
    have hmail : c₁.mail = c.mail := by simp only [Core.mail, hconfig, hdb, hsessions]
    exact Or.inl (.of_eq hmail hclients)
  | lock => exact Or.inl lockClients_talks.quiet
  | start => exact Or.inl startWith_quiet
  | init | broadcast => exact Or.inl emit_talks.quiet
  | error | ack => exact Or.inl sendToClient_talks.quiet
  | notify => exact Or.inl notifyMissed_talks.quiet
  | reply h | fanout h | accept _ h | echo _ h => exact absurd h.done (hdeaf.done _)
  | register _ hcmd | version hcmd | replay _ hcmd | cached _ hcmd => exact absurd hcmd (hdeaf.command _)
  | cache henv hframe hcode h =>
    rcases cacheResponse_cases h with hmute | ⟨-, hlong, -⟩
    · exact Or.inl hmute.toQuiet
    · exact absurd hlong.fansOut (hdeaf.frame _ _ hframe hcode)
  | raw => exact Or.inl recordRaw_mute.toQuiet
  | maintain hupkeep henv => exact Or.inr ⟨hupkeep, _, henv, rfl⟩
  | restore _ _ h => exact Or.inl (restoreBlobs_mute h).toQuiet

/-- What such a turn keeps, besides what it does as it forgets old rows. -/
theorem Writes.deaf {P : Core → Prop} (hw : Writes S c c₁) (hdeaf : S.Deaf) (hP : P c)
    (hquiet : ∀ c c₁, Quiet c c₁ → P c → P c₁) (hupkeep : S.upkeep → ∀ c env, S.env env → P c → P (c.maintain env)) :
    P c₁ := by
  refine hw.keeps hP fun c c₁ hw hP => ?_
  rcases hw.deaf hdeaf with h | ⟨h, env, henv, rfl⟩
  · exact hquiet c c₁ h hP
  · exact hupkeep h c env henv hP

/-! ### What a reply copies -/

variable {v : ClientId → UInt8} {P : Audience} {q : ClientId → Why → Bytes → Prop} {payload : Bytes} {why : Why}

theorem map_delivery (payload : Bytes) (l : List ClientId) (ht : Told v P c) (hl : ∀ cid ∈ l, cid ∈ c.clients.channels)
    (hwhy : ∀ cid who version frame, liveCopy (.client cid who version frame why) = some (cid, version, frame)) :
    (l.map fun cid => c.delivery cid payload why).filterMap liveCopy = l.map (copyFor v payload) := by
  rw [List.filterMap_map, ← List.filterMap_eq_map]
  refine List.filterMap_congr fun cid hcid => ?_
  simp only [Function.comp_apply, delivery, hwhy, copyFor, ht.connected cid (hl cid hcid)]

theorem sendToClient_copies (cid : ClientId) (payload : Bytes) (why : Why) (ht : Told v P c)
    (hwhy : ∀ cid who version frame, liveCopy (.client cid who version frame why) = some (cid, version, frame)) :
    Appends liveCopy (([cid].filter fun cid => c.clients.lock.channels.contains cid).map (copyFor v payload)) c
      (c.sendToClient cid payload why) := by
  have hlock : Told v P c.lockClients := ht.lock
  unfold sendToClient
  dsimp only
  cases halive : c.lockClients.clients.channels.contains cid with
  | false =>
    have hgone : c.clients.lock.channels.contains cid = false := halive
    simp only [List.filter_cons, hgone, Bool.false_eq_true, if_false, List.filter_nil, List.map_nil]
    exact .of_out (List.append_nil _).symm
  | true =>
    have hhere : c.clients.lock.channels.contains cid = true := halive
    simp only [List.filter_cons, hhere, if_true, List.filter_nil]
    rw [← map_delivery payload _ hlock (fun cid' hcid' => ?_) hwhy]
    · exact .of_out rfl
    · exact List.mem_singleton.mp hcid' ▸ List.contains_iff_mem.mp hhere

theorem broadcastToOthers_copies (exclude : Option ClientId) (payload : Bytes) (why : Why) (ht : Told v P c)
    (hwhy : ∀ cid who version frame, liveCopy (.client cid who version frame why) = some (cid, version, frame)) :
    Appends liveCopy ((c.clients.lock.channels.filter fun cid => exclude != some cid).map (copyFor v payload)) c
      (c.broadcastToOthers exclude payload why) := by
  have hlock : Told v P c.lockClients := ht.lock
  rw [← map_delivery payload (c.clients.lock.channels.filter fun cid => exclude != some cid) hlock
    (fun cid hcid => (List.mem_filter.mp hcid).1) hwhy]
  exact .of_out rfl

theorem recordAck_clients {cid : ClientId} {t : Ticket} : (c.recordAck env cid t code frame).clients = c.clients := by
  unfold recordAck
  dsimp only
  split <;> rfl

theorem recordAck_copies {cid : ClientId} {t : Ticket} : Appends liveCopy [] c (c.recordAck env cid t code frame) := by
  unfold recordAck
  dsimp only
  split
  · exact List.filterMap_append
  · exact .of_out (List.append_nil _).symm

theorem recordAck_told {cid : ClientId} {t : Ticket} (ht : Told v P c) :
    Told v P (c.recordAck env cid t code frame) := by
  refine ht.of_eq recordAck_clients ?_
  unfold recordAck
  dsimp only
  split <;> rfl

theorem sendToClient_clients {cid : ClientId} : (c.sendToClient cid payload why).clients = c.clients.lock := by
  unfold sendToClient
  dsimp only
  split <;> rfl

theorem deliverReply_copies (env : Env) (f : InFlight) (code : UInt8) (frame : Bytes) (ht : Told v P c) :
    Appends liveCopy ((f.hearers c.clients code).map (copyFor v frame)) c (c.deliverReply env f code frame) := by
  have hreply : Told v P (c.replyToClient env f code frame) ∧
      Appends liveCopy ((f.clientId.toList.filter fun cid => c.clients.lock.channels.contains cid).map
        (copyFor v frame)) c (c.replyToClient env f code frame) ∧
      (c.replyToClient env f code frame).clients.lock = if f.clientId.isSome then c.clients.lock.lock
      else c.clients.lock := by
    unfold replyToClient
    cases f.clientId with
    | none => exact ⟨ht, .of_out (List.append_nil _).symm, rfl⟩
    | some cid =>
      have hrecord : Told v P (c.recordAck env cid f.ticket code frame) := recordAck_told ht
      have hspeaks : Speaks v P (fun _ _ _ => True) (c.recordAck env cid f.ticket code frame)
          ((c.recordAck env cid f.ticket code frame).sendToClient cid frame (.reply f.ticket)) :=
        sendToClient_speaks hrecord trivial
      have hcopies := recordAck_copies.trans (sendToClient_copies cid frame (.reply f.ticket) hrecord
        fun _ _ _ _ => rfl)
      rw [recordAck_clients] at hcopies
      exact ⟨hspeaks.told, hcopies, congrArg Clients.lock
        (sendToClient_clients.trans (congrArg Clients.lock recordAck_clients))⟩
  obtain ⟨ht₁, hcopies, hlock⟩ := hreply
  have heq : c.deliverReply env f code frame = if f.cmdCode = 0x0A ∧ Scope.fansOut code then
      (c.replyToClient env f code frame).broadcastToOthers f.clientId frame (.fanout f.ticket)
    else c.replyToClient env f code frame := deliverReply_eq
  rw [heq, InFlight.hearers, List.map_append]
  by_cases hfan : f.cmdCode = 0x0A ∧ Scope.fansOut code
  · rw [if_pos hfan, if_pos hfan, ← hlock]
    exact hcopies.trans (broadcastToOthers_copies _ _ _ ht₁ fun _ _ _ _ => rfl)
  · rw [if_neg hfan, if_neg hfan, List.map_nil, List.append_nil]
    exact hcopies

theorem deliverReply_clients {sender : ClientId} (hclient : f.clientId = some sender) (hpoll : f.cmdCode ≠ 0x0A) :
    (c.deliverReply env f code frame).clients = c.clients.lock := by
  rw [deliverReply_eq, if_neg fun h => hpoll h.1, replyToClient, hclient]
  exact sendToClient_clients.trans (congrArg Clients.lock recordAck_clients)

theorem aside_deaf : (aside env).Deaf := ⟨fun _ h => h, fun _ h => h, fun _ _ h => h.elim⟩

theorem advanceQueue_quiet (env : Env) : Quiet c (c.advanceQueue env) :=
  Writes.deaf (P := Quiet c) (advanceQueue_writes (S := aside env) rfl) aside_deaf .refl (fun _ _ h hc => hc.trans h)
    fun h => h.elim

/-- Only replies, fan-outs and echoes are copies. -/
theorem Speaks.no_copies (h : Speaks v P q c c₁) (hq : ∀ cid why payload, q cid why payload →
    (∃ t, why = .error t) ∨ why = .notify) : Appends liveCopy [] c c₁ := by
  refine h.appends_nil fun e he => ?_
  cases e with
  | client cid who version frame why =>
    obtain ⟨-, -, payload, -, hpayload⟩ := he
    rcases hq cid why payload hpayload with ⟨t, rfl⟩ | rfl <;> rfl
  | _ => rfl

/-! ### What a reply stores -/

/-- What is copied and stored as a request is completed: nothing, but for the echo of what its client sent. -/
inductive Echoed (v : ClientId → UInt8) (env : Env) (f : InFlight) (code : UInt8) (c c₁ : Core) : Prop
  | nothing (quiet : Quiet c c₁) (copies : Appends liveCopy [] c c₁) (rows : Appends storedRow [] c c₁)
  | echo {sender : ClientId} {echo : NewMessage} {b : Core} (accepts : code ≠ 0x01)
      (client : f.clientId = some sender) (of : c.EchoOf f echo) (before : Quiet c b)
      (lock : b.clients = c.clients.lock) (after : Quiet (b.storeMessage env { echo with origin := f.origin }) c₁)
      (copies : Appends liveCopy ((c.clients.lock.channels.filter fun cid => some sender != some cid).map
        (copyFor v echo.frame)) c c₁)
      (rows : Appends storedRow [b.db.newRow env.unix { echo with origin := f.origin }] c c₁)

theorem Echoed.after (h : Echoed v env f code c c₁) (hquiet : Quiet c₁ c₂) (hcopies : Appends liveCopy [] c₁ c₂)
    (hrows : Appends storedRow [] c₁ c₂) : Echoed v env f code c c₂ := by
  cases h with
  | nothing quiet copies rows => exact .nothing (quiet.trans hquiet) (copies.trans hcopies) (rows.trans hrows)
  | echo accepts client of before lock after copies rows =>
    refine .echo accepts client of before lock (after.trans hquiet) ?_ ?_
    · simpa using copies.trans hcopies
    · simpa using rows.trans hrows

theorem Echoed.behind (h : Echoed v env f code c₁ c₂) (hquiet : Quiet c c₁) (hclients : c₁.clients = c.clients)
    (hnaming : c₁.naming = c.naming) (hcopies : Appends liveCopy [] c c₁) (hrows : Appends storedRow [] c c₁) :
    Echoed v env f code c c₂ := by
  cases h with
  | nothing quiet copies rows => exact .nothing (hquiet.trans quiet) (hcopies.trans copies) (hrows.trans rows)
  | echo accepts client of before lock after copies rows =>
    exact .echo accepts client (of.of_naming hnaming) (hquiet.trans before) (hclients ▸ lock) after
      (hclients ▸ hcopies.trans copies) (hrows.trans rows)

theorem synthesizeEcho_echoed {sender : ClientId} {echo : NewMessage} (ht : Told v P c)
    (hok : env.dbOk .insertMessage = true) (hne : code ≠ 0x01) (hclient : f.clientId = some sender)
    (hecho : c.EchoOf f echo) : Echoed v env f code c (c.synthesizeEcho env sender f echo) := by
  have hcopies := broadcastToOthers_copies (some sender) echo.frame (.echo f.ticket) ht
    fun _ _ _ _ => rfl
  have hnone : Appends storedRow [] c (c.broadcastToOthers (some sender) echo.frame (.echo f.ticket)) := by
    have hnil (l : List ClientId) : (l.map fun cid => c.lockClients.delivery cid echo.frame (.echo f.ticket)).filterMap
        storedRow = [] := by
      simp [List.filterMap_map, Function.comp_def, delivery, storedRow]
    exact hnil _ ▸ .of_out rfl
  obtain ⟨rows, hform, -⟩ := storeMessage_form (c.broadcastToOthers (some sender) echo.frame (.echo f.ticket))
    { echo with origin := f.origin } hok
  have hout :
      (c.synthesizeEcho env sender f echo).out = (c.broadcastToOthers (some sender) echo.frame (.echo f.ticket)).out ++
      [.stored ((c.broadcastToOthers (some sender) echo.frame (.echo f.ticket)).db.newRow env.unix
        { echo with origin := f.origin })
        (c.broadcastToOthers (some sender) echo.frame (.echo f.ticket)).db.clients.keys] := by
    rw [synthesizeEcho, hform]
  have hstored : Appends liveCopy [] (c.broadcastToOthers (some sender) echo.frame (.echo f.ticket))
      (c.synthesizeEcho env sender f echo) := .of_out hout
  refine .echo hne hclient hecho broadcastToOthers_talks.quiet rfl .refl ?_ (hnone.trans (.of_out hout))
  simpa using hcopies.trans hstored

theorem acceptance_speaks {f : InFlight} (ht : Told v P c) (haccepted : P.emits (.accepted f.request)) :
    Speaks v P (fun _ why _ => why = .notify) c (c.acceptance f) := by
  have hemit : Speaks v P (fun _ why _ => why = .notify) c (c.emit (.accepted f.request)) := emit_speaks ht haccepted
  unfold acceptance
  dsimp only
  split
  · split
    · exact hemit.trans fun ht => notifyMissed_speaks ht rfl
    · exact hemit
  · exact hemit

/-- Completing a request goes on with the queue, which stores nothing. -/
theorem complete_echoed (env : Env) (f : InFlight) (code : UInt8) (ht : Told v P c)
    (hok : env.dbOk .insertMessage = true) : Echoed v env f code c (c.complete env f code) := by
  -- Nothing is stored, but for the echo itself.
  let Q : Audience := ⟨fun _ => True, fun e => storedRow e = none⟩
  have ht : Told v Q c := ht.forget
  have hadvance {c₁ : Core} (ht : Told v Q c₁) (h : Echoed v env f code c c₁) :
      Echoed v env f code c (c₁.advanceQueue env) := by
    have hspeaks := advanceQueue_speaks env ht fun e he => aside_stores_nothing he
    exact h.after (advanceQueue_quiet env) (hspeaks.no_copies fun _ _ _ h => Or.inl h.2) (hspeaks.rows_nil fun _ h => h)
  have hfreed : Speaks v Q (fun _ why _ => why = .notify) c
      ({ c with inFlight := none }.emit (.ended f.request (.replied code))) :=
    ⟨ht.of_eq rfl rfl, .refl, [.ended f.request (.replied code)], rfl, by simp [Effect.Spoken, Q, storedRow]⟩
  have hfreed_quiet : Quiet c ({ c with inFlight := none }.emit (.ended f.request (.replied code))) := .of_eq rfl rfl
  unfold complete
  dsimp only
  split
  · rename_i hne
    by_cases hsend : f.cmdCode = 0x02 ∨ f.cmdCode = 0x03
    · have haccepted : Speaks v Q (fun _ why _ => why = .notify) c
          (({ c with inFlight := none }.emit (.ended f.request (.replied code))).emit (.accepted f.request)) :=
        hfreed.trans fun ht => emit_speaks ht rfl
      have hquiet : Quiet c
          (({ c with inFlight := none }.emit (.ended f.request (.replied code))).emit (.accepted f.request)) :=
        .of_eq rfl rfl
      have hclients : (({ c with inFlight := none }.emit (.ended f.request (.replied code))).emit
          (.accepted f.request)).clients = c.clients := rfl
      have hnaming : (({ c with inFlight := none }.emit (.ended f.request (.replied code))).emit
          (.accepted f.request)).naming = c.naming := rfl
      rw [onCommandAccepted_send hsend]
      generalize ({ c with inFlight := none }.emit (.ended f.request (.replied code))).emit (.accepted f.request) = c₁
        at haccepted hquiet hclients hnaming
      have hcopies := haccepted.no_copies fun _ _ _ h => Or.inr h
      have hrows := haccepted.rows_nil fun _ h => h
      rcases echoAccepted_cases c₁ env f with heq | ⟨sender, echo, hclient, hecho, heq⟩
      · rw [heq]
        exact hadvance haccepted.told (.nothing hquiet hcopies hrows)
      · rw [heq]
        have hechoed := synthesizeEcho_echoed haccepted.told hok hne hclient hecho
        have hspeaks : Speaks v .any (fun _ _ _ => True) c₁ (c₁.synthesizeEcho env sender f echo) :=
          synthesizeEcho_speaks haccepted.told.forget (fun _ _ => trivial) fun _ _ _ _ => trivial
        exact hadvance hspeaks.told.forget (hechoed.behind hquiet hclients hnaming hcopies hrows)
    · have haccepted : Speaks v Q (fun _ why _ => why = .notify) c
          (({ c with inFlight := none }.emit (.ended f.request (.replied code))).acceptance f) :=
        hfreed.trans fun ht => acceptance_speaks ht rfl
      have hafter : Speaks v Q (fun _ why _ => why = .notify) c
          ((({ c with inFlight := none }.emit (.ended f.request (.replied code))).acceptance f).afterAccepted env f) :=
        haccepted.trans fun ht => afterAccepted_speaks ht fun _ _ _ => rfl
      have hnone (c : Core) : c.echoAccepted env f = c := by
        rcases echoAccepted_cases c env f with heq | ⟨_, _, -, hecho, -⟩
        · exact heq
        · exact absurd hecho.sends hsend
      rw [onCommandAccepted_eq, hnone]
      refine hadvance hafter.told (.nothing ?_ ?_ (hafter.rows_nil fun _ h => h))
      · exact (hfreed_quiet.trans acceptance_quiet).trans afterAccepted_quiet
      · exact hafter.no_copies fun _ _ _ h => Or.inr h
  · refine hadvance hfreed.told (.nothing hfreed_quiet ?_ (hfreed.rows_nil fun _ h => h))
    exact hfreed.no_copies fun _ _ _ h => Or.inr h

/-! ### Turns of the radio -/

/-- Who gets a frame of the radio as the reply to the request in flight. -/
def hearers (c : Core) (clients : Clients) (code : UInt8) : List ClientId :=
  match c.inFlight with
  | some f => if (f.awaiting.classify code).1 then f.hearers clients code else []
  | none => []

/-- What a frame of the radio copies and stores: nothing, unless it is a message or accepts one. -/
inductive Mailed (v : ClientId → UInt8) (env : Env) (frame : Bytes) (c c₁ : Core) : Prop
  | nothing (quiet : Quiet c c₁) (rows : Appends storedRow [] c c₁)
  | message {code : UInt8} {msg : NewMessage} (head : frame.head? = some code) (long : Storable code frame)
      (same : msg.frame = frame) (origin : msg.origin = none) (after : Quiet (c.storeMessage env msg) c₁)
      (copies : Appends liveCopy ((c.hearers c.clients.lock code).map (copyFor v frame)) c c₁)
      (rows : Appends storedRow [c.db.newRow env.unix msg] c c₁)
  | echo {f : InFlight} {code : UInt8} {sender : ClientId} {echo : NewMessage} {b : Core} (slot : c.inFlight = some f)
      (head : frame.head? = some code) (ends : f.awaiting.classify code = (true, true)) (accepts : code ≠ 0x01)
      (client : f.clientId = some sender) (of : c.EchoOf f echo) (before : Quiet c b)
      (lock : b.clients = c.clients.lock.lock) (after : Quiet (b.storeMessage env { echo with origin := f.origin }) c₁)
      (copies : Appends liveCopy ((f.hearers c.clients code).map (copyFor v frame) ++
        (c.clients.lock.lock.channels.filter fun cid => some sender != some cid).map (copyFor v echo.frame)) c c₁)
      (rows : Appends storedRow [b.db.newRow env.unix { echo with origin := f.origin }] c c₁)

/-- A message is not the acceptance of one. -/
theorem not_sends_of_fansOut (hmessage : Scope.fansOut code)
    (hends : (awaitingFor f.payload).classify code = (true, true)) :
    ¬(f.cmdCode = 0x02 ∨ f.cmdCode = 0x03) := by
  intro hsend
  have hends' : (awaitingFor f.payload).classify code ≠ (true, true) := by
    rcases hsend with h | h <;> rcases hmessage with rfl | rfl | rfl | rfl <;>
      simp [awaitingFor, show f.payload.code = _ from h, Awaiting.classify]
  exact hends' hends

theorem routeUnmatched_of_message (hmessage : Scope.fansOut code) : c.routeUnmatched env code frame = c := by
  have hack : c.tryRouteAck code frame = (false, c) := by
    unfold tryRouteAck
    rcases hmessage with rfl | rfl | rfl | rfl <;> rfl
  unfold routeUnmatched
  rw [hack]
  rcases hmessage with rfl | rfl | rfl | rfl <;> rfl

theorem deliverReply_rows (env : Env) (f : InFlight) (code : UInt8) (frame : Bytes) (ht : Told v P c) :
    Appends storedRow [] c (c.deliverReply env f code frame) := by
  have ht : Told v ⟨fun _ => True, fun e => storedRow e = none⟩ c := ht.forget
  exact (deliverReply_speaks env f code frame ht fun _ _ => rfl).rows_nil fun _ h => h

theorem deliverReply_told (env : Env) (f : InFlight) (code : UInt8) (frame : Bytes) (ht : Told v .any c) :
    Told v .any (c.deliverReply env f code frame) :=
  (deliverReply_speaks env f code frame ht fun _ _ => trivial).told

theorem routeFrame_message (env : Env) (frame : Bytes) (ht : Told v .any c) (hmessage : Scope.fansOut code)
    (hok : env.dbOk .insertMessage = true) (hawaiting : ∀ f, c.inFlight = some f → f.awaiting = awaitingFor f.payload) :
    Quiet c (c.routeFrame env code frame) ∧ Appends storedRow [] c (c.routeFrame env code frame) ∧
      Appends liveCopy ((c.hearers c.clients code).map (copyFor v frame)) c (c.routeFrame env code frame) := by
  have hunmatched : Quiet c c ∧ Appends storedRow [] c c ∧ Appends liveCopy [] c c :=
    ⟨.refl, .of_out (List.append_nil _).symm, .of_out (List.append_nil _).symm⟩
  rw [routeFrame_eq]
  unfold hearers
  cases hslot : c.inFlight with
  | none => simpa only [routeUnmatched_of_message hmessage, List.map_nil] using hunmatched
  | some f =>
    have hcopies := deliverReply_copies env f code frame ht
    have hrows := deliverReply_rows env f code frame ht
    have hquiet : Quiet c (c.deliverReply env f code frame) := deliverReply_quiet
    dsimp only
    rcases hends : f.awaiting.classify code with ⟨_ | _, _ | _⟩ <;> dsimp only
    · simpa only [routeUnmatched_of_message hmessage, Bool.false_eq_true, if_false, List.map_nil] using hunmatched
    · simpa only [routeUnmatched_of_message hmessage, Bool.false_eq_true, if_false, List.map_nil] using hunmatched
    · exact ⟨hquiet.trans (.of_eq rfl rfl), hrows, hcopies⟩
    · rw [if_pos rfl]
      rw [hawaiting f hslot] at hends
      cases complete_echoed env f code (deliverReply_told env f code frame ht) hok with
      | nothing quiet copies rows =>
        refine ⟨hquiet.trans quiet, hrows.trans rows, ?_⟩
        simpa using hcopies.trans copies
      | echo _ _ of => exact absurd of.sends (not_sends_of_fansOut hmessage hends)

theorem routeUnmatched_quiet (env : Env) (ht : Told v .any c) (hcode : frame.head? = some code)
    (hno : ¬Scope.fansOut code) :
    Quiet c (c.routeUnmatched env code frame) ∧ Appends storedRow [] c (c.routeUnmatched env code frame) := by
  have hwrites : Writes ⟨(· = env), (· = frame), fun _ => False, fun _ _ _ => False, fun _ => False, False, False⟩ c
      (c.routeUnmatched env code frame) := routeUnmatched_writes rfl rfl hcode
  have hframe (frame' : Bytes) (code' : UInt8) (h : frame' = frame) (hcode' : frame'.head? = some code') :
      ¬Scope.fansOut code' := by
    obtain rfl : code = code' := Option.some.inj (hcode.symm.trans (h ▸ hcode'))
    exact hno
  refine ⟨hwrites.deaf ⟨fun _ h => h, fun _ h => h, hframe⟩ .refl (fun _ _ h hc => hc.trans h) fun h => h.elim, ?_⟩
  have ht : Told v ⟨fun _ => True, fun e => storedRow e = none⟩ c := ht.forget
  have hspeaks :=
    (writes_speak (q := fun _ _ _ => True) (I := fun _ => True) hwrites ht trivial
      ⟨fun e he => ?_, fun _ h => absurd h id⟩ (fun _ _ _ _ => trivial) fun _ _ _ _ _ _ _ => trivial).1
  · exact hspeaks.rows_nil fun _ h => h
  · cases he with
    | stored _ h =>
      cases h with
      | frame hframe' hcode' hmessage => exact absurd hmessage (hframe _ _ hframe' hcode')
      | echo h => exact h.done.elim
    | logs h => cases h <;> rfl
    | radio | init | broadcast => rfl

theorem routeFrame_other (env : Env) (frame : Bytes) (ht : Told v .any c) (hcode : frame.head? = some code)
    (hno : ¬Scope.fansOut code) (hok : env.dbOk .insertMessage = true) :
    Mailed v env frame c (c.routeFrame env code frame) := by
  obtain ⟨hquiet, hrows⟩ := routeUnmatched_quiet env ht hcode hno
  rw [routeFrame_eq]
  cases hslot : c.inFlight with
  | none => exact .nothing hquiet hrows
  | some f =>
    have hdelivered : Quiet c (c.deliverReply env f code frame) := deliverReply_quiet
    have hrows' := deliverReply_rows env f code frame ht
    dsimp only
    rcases hends : f.awaiting.classify code with ⟨_ | _, _ | _⟩ <;> dsimp only
    · exact .nothing hquiet hrows
    · exact .nothing hquiet hrows
    · exact .nothing (hdelivered.trans (.of_eq rfl rfl)) hrows'
    · cases complete_echoed env f code (deliverReply_told env f code frame ht) hok with
      | nothing quiet copies rows => exact .nothing (hdelivered.trans quiet) (hrows'.trans rows)
      | @echo sender echo b accepts client of before lock after copies rows =>
        have hpoll : f.cmdCode ≠ 0x0A := by
          rcases of.sends with h | h <;> rw [h] <;> decide
        have hclients : (c.deliverReply env f code frame).clients = c.clients.lock := deliverReply_clients client hpoll
        rw [hclients] at lock copies
        exact .echo hslot hcode hends accepts client (of.of_naming deliverReply_naming)
          (hdelivered.trans before) lock after
          ((deliverReply_copies env f code frame ht).trans copies) (hrows'.trans rows)

theorem recordRaw_same (c : Core) (env : Env) (code : UInt8) (frame : Bytes) :
    (c.recordRaw env code frame).inFlight = c.inFlight ∧ (c.recordRaw env code frame).clients = c.clients ∧
    (c.recordRaw env code frame).naming = c.naming := by
  unfold recordRaw
  split <;> exact ⟨rfl, rfl, rfl⟩

theorem Mute.appends_nil {β : Type} {g : Effect → Option β} (h : Mute c c₁) : Appends g [] c c₁ := by
  rw [Appends, h.out, List.append_nil]

theorem storeMessage_message (msg : NewMessage) (ht : Told v .any c) (hok : env.dbOk .insertMessage = true) :
    Told v .any (c.storeMessage env msg) ∧ (c.storeMessage env msg).clients = c.clients.lock ∧
      (c.storeMessage env msg).inFlight = c.inFlight ∧ Appends liveCopy [] c (c.storeMessage env msg) ∧
      Appends storedRow [c.db.newRow env.unix msg] c (c.storeMessage env msg) := by
  have hspeaks : Speaks v .any (fun _ _ _ => True) c (c.storeMessage env msg) :=
    storeMessage_speaks ht fun _ _ _ _ => trivial
  obtain ⟨rows, hform, -⟩ := storeMessage_form c msg hok
  have hout : (c.storeMessage env msg).out = c.out ++ [.stored (c.db.newRow env.unix msg) c.db.clients.keys] := by
    rw [hform]
  exact ⟨hspeaks.told, by rw [hform]; rfl, by rw [hform]; rfl, .of_out hout, .of_out hout⟩

theorem handleRadioRx_mailed (ht : Told v .any c) (h : c.handleRadioRx env frame = .ok c₁)
    (hok : env.dbOk .insertMessage = true)
    (hawaiting : ∀ f, c.inFlight = some f → f.awaiting = awaitingFor f.payload) : Mailed v env frame c c₁ := by
  unfold handleRadioRx at h
  split at h
  · cases h
    exact .nothing .refl (.of_out (List.append_nil _).symm)
  · rename_i code rest
    obtain ⟨-, -, h⟩ := Except.of_bind_eq_ok h
    obtain ⟨c', hc', h⟩ := Except.of_bind_eq_ok h
    cases h
    have hkept : Kept (Effect.Side none) c c' := cacheResponse_kept hc'
    obtain ⟨hslot, hclients, hnaming⟩ := recordRaw_same c' env code (code :: rest)
    have hraw : Mute c' (c'.recordRaw env code (code :: rest)) := recordRaw_mute
    have hraw_told {c : Core} (ht : Told v .any c) : Told v .any (c.recordRaw env code (code :: rest)) := by
      have hspeaks : Speaks v .any (fun _ _ _ => True) c (c.recordRaw env code (code :: rest)) :=
        .of_if ht fun _ => .of_eq ht rfl rfl rfl
      exact hspeaks.told
    generalize hc₂ : c'.recordRaw env code (code :: rest) = c₂ at hslot hclients hnaming hraw
    have hawaiting₂ : ∀ f, c₂.inFlight = some f → f.awaiting = awaitingFor f.payload := fun f hf =>
      hawaiting f (by rw [← hkept.slot, ← hslot, hf])
    rcases cacheResponse_cases hc' with hmute | ⟨msg, hlong, hsame, horigin, rfl⟩
    · have hmute₂ : Mute c c₂ := hmute.trans hraw
      have ht₂ : Told v .any c₂ := by
        have hcache : Speaks v .any (fun _ _ _ => True) c c' := cacheResponse_speaks hc' ht fun _ _ _ _ _ => trivial
        exact hc₂ ▸ hraw_told hcache.told
      by_cases hmessage : Scope.fansOut code
      · obtain ⟨hquiet, hrows, -⟩ := routeFrame_message env (code :: rest) ht₂ hmessage hok hawaiting₂
        exact .nothing (hmute₂.toQuiet.trans hquiet) (hmute₂.appends_nil.trans hrows)
      · cases routeFrame_other env (code :: rest) ht₂ rfl hmessage hok with
        | nothing quiet rows => exact .nothing (hmute₂.toQuiet.trans quiet) (hmute₂.appends_nil.trans rows)
        | message head long =>
          obtain rfl := Option.some.inj head
          exact absurd long.fansOut hmessage
        | @echo f code' sender echo b slot head ends accepts client of before lock after copies rows =>
          obtain rfl := Option.some.inj head
          -- The frame that accepts a message writes nothing to the cache.
          obtain rfl : c = c' :=
            Except.ok.inj ((cacheResponse_of_send of.sends (hawaiting₂ f slot ▸ ends) accepts).symm.trans hc')
          rw [hclients] at lock copies
          exact .echo (hslot ▸ slot) rfl ends accepts client (of.of_naming hnaming)
            (hmute₂.toQuiet.trans before) lock after
            (hmute₂.appends_nil.trans copies) (hmute₂.appends_nil.trans rows)
    · obtain ⟨ht', hclients', hslot', hcopies', hrows'⟩ := storeMessage_message msg ht hok
      obtain ⟨hquiet, hrows, hcopies⟩ := routeFrame_message env (code :: rest) (hc₂ ▸ hraw_told ht') hlong.fansOut
        hok hawaiting₂
      have hhearers : c₂.hearers c₂.clients code = c.hearers c.clients.lock code := by
        rw [hearers, hearers, hslot, hslot', hclients, hclients']
      rw [hhearers] at hcopies
      refine .message rfl hlong hsame horigin (hraw.toQuiet.trans hquiet) ?_ ?_
      · exact hcopies'.trans (hraw.appends_nil.trans hcopies)
      · exact hrows'.trans (hraw.appends_nil.trans hrows)

end
end Core
end CoreSplitter
