import CoreSplitter.Lib.Journal
import CoreSplitter.Theorems.Calls
import CoreSplitter.Theorems.Mail

/-! The cached contacts and channels, by the journals of their tables: what each turn of the core puts into them,
    takes out and sweeps. -/

namespace CoreSplitter
open Bytes

/-! ### Changes -/

theorem Command.holdsKey {p : Command} (h : p.code = 0x0F ∧ p.bytes.length ≥ 33) : 1 ≤ 33 ∧ 33 ≤ p.bytes.length :=
  ⟨by decide, h.2⟩

/-- The contact that a REMOVE_CONTACT names. -/
def Command.removedContact (p : Command) : Option Bytes :=
  if h : p.code = 0x0F ∧ p.bytes.length ≥ 33 then some (slice p.bytes 1 33 (holdsKey h)) else none

/-- The channel that a SET_CHANNEL writes. -/
def Command.writtenChannel (p : Command) : Option Int :=
  if p.code = 0x20 then (p.bytes[1]?).map fun idx => (idx.toNat : Int) else none

/-- What a request takes out of the contacts as it is sent. -/
def Command.contactTake (ok : DbCall → Bool) (p : Command) : List (Change Bytes ContactRow) :=
  if ok .deleteContact then p.removedContact.toList.map .take else []

/-- What a request takes out of the channels as it is sent. -/
def Command.channelTake (ok : DbCall → Bool) (p : Command) : List (Change Int CachedChannel) :=
  if ok .deleteChannel then p.writtenChannel.toList.map .take else []

namespace Core

/-- What a frame puts into the contacts. -/
def contactPut (env : Env) (frame : Bytes) : List (Change Bytes ContactRow) :=
  if h : frame.head? = some 0x03 ∧ contactFrameLen ≤ frame.length then
    if env.dbOk .upsertContact then [.put (contactOf frame h.2).publicKey ⟨contactOf frame h.2, some env.unix⟩] else []
  else []

/-- What a frame puts into the channels. -/
def channelPut (env : Env) (frame : Bytes) : List (Change Int CachedChannel) :=
  if h : frame.head? = some 0x12 ∧ 50 ≤ frame.length then
    if env.dbOk .upsertChannel then [.put (channelOf frame h.2).idx (channelOf frame h.2)] else []
  else []

/-- What the contacts and the channels are changed by, next to what is emitted. -/
structure Journals (contacts : List (Change Bytes ContactRow)) (channels : List (Change Int CachedChannel))
    (sent : List Queued) (c c₁ : Core) : Prop where
  contacts : c₁.db.contacts = Change.replay contacts c.db.contacts
  channels : c₁.db.channels = Change.replay channels c.db.channels
  out : ∃ es, c₁.out = c.out ++ es ∧ sentToRadio es = sent

/-- Some requests are sent, and take out of the tables what they concern. -/
def Takes (ok : DbCall → Bool) (c c₁ : Core) : Prop :=
  ∃ sent, Journals (sent.flatMap fun q => q.payload.contactTake ok) (sent.flatMap fun q =>
      q.payload.channelTake ok) sent c c₁

section
variable {contacts contacts' : List (Change Bytes ContactRow)} {channels channels' : List (Change Int CachedChannel)}
  {sent sent' : List Queued} {ok : DbCall → Bool} {orderly : Prop} {t : Option Ticket} {p : Effect → Prop}
  {c c₁ c₂ : Core} {env : Env} {f : InFlight} {code : UInt8} {frame : Bytes}

theorem Journals.refl : Journals [] [] [] c c := ⟨rfl, rfl, [], by simp, rfl⟩

theorem Journals.trans (h₁ : Journals contacts channels sent c c₁) (h₂ : Journals contacts' channels' sent' c₁ c₂) :
    Journals (contacts ++ contacts') (channels ++ channels') (sent ++ sent') c c₂ := by
  obtain ⟨es₁, hout₁, hsent₁⟩ := h₁.out
  obtain ⟨es₂, hout₂, hsent₂⟩ := h₂.out
  refine ⟨by rw [h₂.contacts, h₁.contacts, Change.replay_append],
    by rw [h₂.channels, h₁.channels, Change.replay_append], es₁ ++ es₂, by rw [hout₂, hout₁, List.append_assoc], ?_⟩
  rw [← hsent₁, ← hsent₂]
  exact List.filterMap_append

theorem sentToRadio_eq_nil {es : List Effect} (h : ∀ q, Effect.radio q ∉ es) : sentToRadio es = [] :=
  List.eq_nil_iff_forall_not_mem.mpr fun q hq => h q (mem_sentToRadio.mp hq)

theorem Takes.refl : Takes ok c c := ⟨[], .refl⟩

theorem Takes.trans (h₁ : Takes ok c c₁) (h₂ : Takes ok c₁ c₂) : Takes ok c c₂ := by
  obtain ⟨sent, h₁⟩ := h₁
  obtain ⟨sent', h₂⟩ := h₂
  refine ⟨sent ++ sent', ?_⟩
  rw [List.flatMap_append, List.flatMap_append]
  exact h₁.trans h₂

theorem Takes.of_eq (hcontacts : c₁.db.contacts = c.db.contacts) (hchannels : c₁.db.channels = c.db.channels)
    (hout : ∃ es, c₁.out = c.out ++ es ∧ ∀ q, Effect.radio q ∉ es) : Takes ok c c₁ := by
  obtain ⟨es, hout, hes⟩ := hout
  exact ⟨[], hcontacts, hchannels, es, hout, sentToRadio_eq_nil hes⟩

theorem Still.takes (h : Still p c c₁) (hp : ∀ q, ¬p (.radio q)) : Takes ok c c₁ := by
  obtain ⟨es, hout, hes⟩ := h.out
  exact .of_eq h.contacts h.channels ⟨es, hout, fun q hq => hp q (hes _ hq)⟩

theorem invalidate_contacts {p : Command} :
    (c.invalidate env p).db.contacts = Change.replay (p.contactTake env.dbOk) c.db.contacts := by
  by_cases hcode : p.code = 0x0F
  · by_cases hlen : p.bytes.length ≥ 33
    · by_cases hok : env.dbOk .deleteContact = true
      · simp [invalidate, hlen, hok, hcode, Command.contactTake, Command.removedContact,
          NodeState.deleteContact, Change.apply]
      · simp [invalidate, hcode, hlen, hok, Command.contactTake]
    · simp [invalidate, hcode, hlen, Command.contactTake, Command.removedContact]
  · rw [show Change.replay (p.contactTake env.dbOk) c.db.contacts = c.db.contacts by
      simp [Command.contactTake, Command.removedContact, hcode]]
    unfold invalidate
    split
    case h_1 h => exact absurd h hcode
    case h_2 =>
      split
      · split <;> rfl
      · rfl
    all_goals rfl

theorem invalidate_channels {p : Command} :
    (c.invalidate env p).db.channels = Change.replay (p.channelTake env.dbOk) c.db.channels := by
  by_cases hcode : p.code = 0x20
  · by_cases hlen : p.bytes.length > 1
    · by_cases hok : env.dbOk .deleteChannel = true
      · simp [invalidate, hlen, hok, hcode, Command.channelTake, Command.writtenChannel,
          NodeState.deleteChannel, Change.apply]
      · simp [invalidate, hcode, hlen, hok, Command.channelTake]
    · simp [invalidate, hcode, hlen, Command.channelTake, Command.writtenChannel]
  · rw [show Change.replay (p.channelTake env.dbOk) c.db.channels = c.db.channels by
      simp [Command.channelTake, Command.writtenChannel, hcode]]
    unfold invalidate
    split
    case h_1 =>
      split
      · split <;> rfl
      · rfl
    case h_2 h => exact absurd h hcode
    all_goals rfl

theorem failTo_takes {q : Queued} : Takes ok c (c.failTo q) := failTo_still.takes fun _ ⟨_, _, _, _, _, h⟩ => nomatch h

theorem popped_takes {rest : List Queued} : Takes ok c (c.popped rest) := .of_eq rfl rfl ⟨[], by simp [popped], by simp⟩

theorem ended_takes {q : Queued} {how : Ending} : Takes ok c (c.emit (.ended q how)) :=
  .of_eq rfl rfl ⟨[.ended q how], rfl, by simp⟩

theorem Move.takes (h : Move orderly env t c c₁) : Takes env.dbOk c c₁ := by
  cases h with
  | still h => exact h.takes fun q hq => nomatch hq.lane
  | relay h => exact h.takes fun q hq => nomatch hq.lane
  | submit clientId payload => exact .of_eq rfl rfl ⟨[.handed ⟨clientId, payload, c.nextTicket⟩], rfl, by simp⟩
  | jump clientId payload => exact .of_eq rfl rfl ⟨[.handed ⟨clientId, payload, c.nextTicket⟩], rfl, by simp⟩
  | @start q rest =>
    have hkept : Kept (fun _ => False) ((c.popped rest).emit (.radio q))
        (((c.popped rest).emit (.radio q)).invalidate env q.payload) := invalidate_kept
    refine ⟨[q], ?_, ?_, [.radio q], hkept.silent, rfl⟩
    · rw [List.flatMap_singleton]
      exact invalidate_contacts
    · rw [List.flatMap_singleton]
      exact invalidate_channels
  | refuse => exact (popped_takes.trans failTo_takes).trans ended_takes
  | drop => exact popped_takes.trans ended_takes

theorem Moves.takes (h : Moves orderly env t c c₁) : Takes env.dbOk c c₁ := by
  induction h with
  | refl => exact .refl
  | tail _ hm ih => exact ih.trans hm.takes

/-! ### Frames of the radio -/

theorem cacheResponse_journals (h : c.cacheResponse env code frame = .ok c₁) (hcode : frame.head? = some code) :
    Journals (contactPut env frame) (channelPut env frame) [] c c₁ := by
  obtain ⟨es, hout, hes⟩ := (cacheResponse_kept (t := none) h).out
  have hsent : sentToRadio es = [] := sentToRadio_eq_nil fun q hq => nomatch (hes _ hq).lane
  by_cases hcontact : code = 0x03
  · subst hcontact
    have hput : channelPut env frame = [] := by simp [channelPut, hcode]
    have hform := cacheResponse_contact h
    refine ⟨?_, ?_, es, hout, hsent⟩
    · rw [hform]
      by_cases hlen : contactFrameLen ≤ frame.length
      · by_cases hok : env.dbOk .upsertContact = true
        · simp [hlen, hok, hcode, contactPut, cacheContact, NodeState.upsertContact, Change.apply]
        · simp [hlen, hok, contactPut, cacheContact]
      · simp [hlen, contactPut]
    · rw [hform, hput]
      split
      · unfold cacheContact
        split <;> rfl
      · rfl
  · have hput : contactPut env frame = [] := by simp [contactPut, hcode, hcontact]
    by_cases hchannel : code = 0x12
    · subst hchannel
      have hform := cacheResponse_channel h
      refine ⟨?_, ?_, es, hout, hsent⟩
      · rw [hform, hput]
        split
        · unfold cacheChannel
          split <;> rfl
        · rfl
      · rw [hform]
        by_cases hlen : 50 ≤ frame.length
        · by_cases hok : env.dbOk .upsertChannel = true
          · simp [hlen, hok, hcode, channelPut, cacheChannel, NodeState.upsertChannel, Change.apply]
          · simp [hlen, hok, channelPut, cacheChannel]
        · simp [hlen, channelPut]
    · have hput' : channelPut env frame = [] := by simp [channelPut, hcode, hchannel]
      have hstill : Still (Effect.Side none) c c₁ := cacheResponse_still h hcontact hchannel
      rw [hput, hput']
      exact ⟨hstill.contacts, hstill.channels, es, hout, hsent⟩

theorem deliverReply_takes : Takes ok c (c.deliverReply env f code frame) := deliverReply_still.takes fun _ hq =>
    nomatch hq.lane

theorem Routed.takes (h : Routed env code frame c c₁) : Takes env.dbOk c c₁ := by
  cases h with
  | finish f _ _ h =>
    have hreply : Takes env.dbOk c { c.deliverReply env f code frame with inFlight := none } :=
      deliverReply_takes.trans (.of_eq rfl rfl ⟨[], by simp, by simp⟩)
    exact (hreply.trans ended_takes).trans h.takes
  | part f _ _ h =>
    rw [h]
    exact deliverReply_takes.trans (.of_eq rfl rfl ⟨[], by simp [replyPart], by simp⟩)
  | other _ h => exact h.takes

/-- What a frame of the radio does: it is put into its table, and then requests are sent. -/
theorem handleRadioRx_journals (h : c.handleRadioRx env frame = .ok c₁) : ∃ sent,
    Journals (contactPut env frame ++ sent.flatMap fun q => q.payload.contactTake env.dbOk)
      (channelPut env frame ++ sent.flatMap fun q => q.payload.channelTake env.dbOk) sent c c₁ := by
  rcases handleRadioRx_routed h with ⟨rfl, rfl⟩ | ⟨code, rest, c', rfl, hcache, hr⟩
  · exact ⟨[], .refl⟩
  · have hraw : Takes env.dbOk c' (c'.recordRaw env code (code :: rest)) :=
      recordRaw_still.takes (p := fun _ => False) fun _ h => h
    obtain ⟨sent, hsent⟩ := hraw.trans hr.takes
    exact ⟨sent, (cacheResponse_journals hcache rfl).trans hsent⟩

/-! ### The link -/

/-- The tables stay, and what is sent asks the radio for them. -/
def Syncs (c c₁ : Core) : Prop := ∃ sent, Journals [] [] sent c c₁ ∧ ∀ q ∈ sent, IsSync q

theorem Syncs.refl : Syncs c c := ⟨[], .refl, List.forall_mem_nil _⟩

theorem Syncs.trans (h₁ : Syncs c c₁) (h₂ : Syncs c₁ c₂) : Syncs c c₂ := by
  obtain ⟨sent, h₁, hsync₁⟩ := h₁
  obtain ⟨sent', h₂, hsync₂⟩ := h₂
  exact ⟨sent ++ sent', h₁.trans h₂, List.forall_mem_append.mpr ⟨hsync₁, hsync₂⟩⟩

theorem Syncs.of_eq (hdb : c₁.db = c.db) (hout : ∃ es, c₁.out = c.out ++ es ∧ ∀ q, Effect.radio q ∉ es) :
    Syncs c c₁ := by
  obtain ⟨es, hout, hes⟩ := hout
  exact ⟨[], ⟨by rw [hdb]; rfl, by rw [hdb]; rfl, es, hout, sentToRadio_eq_nil hes⟩, List.forall_mem_nil _⟩

theorem Still.syncs (h : Still p c c₁) (hp : ∀ q, ¬p (.radio q)) : Syncs c c₁ := by
  obtain ⟨es, hout, hes⟩ := h.out
  exact ⟨[], ⟨h.contacts, h.channels, es, hout, sentToRadio_eq_nil fun q hq => hp q (hes _ hq)⟩, List.forall_mem_nil _⟩

theorem failTo_syncs {q : Queued} : Syncs c (c.failTo q) := failTo_still.syncs fun _ ⟨_, _, _, _, _, h⟩ => nomatch h

theorem ended_syncs {q : Queued} {how : Ending} : Syncs c (c.emit (.ended q how)) :=
  .of_eq rfl ⟨[.ended q how], rfl, by simp⟩

theorem Drain.syncs (h : Drain c c₁) : Syncs c c₁ := by
  induction h with
  | done => exact .refl
  | @lost c c' q rest _ _ ih =>
    have hpop : Syncs c (c.popped rest) := .of_eq rfl ⟨[], by simp [popped], by simp⟩
    exact ((hpop.trans failTo_syncs).trans ended_syncs).trans ih

theorem unlinked_syncs : Syncs c c.unlinked := by
  have hlink : Syncs c { c with radioSendTx := false, radioUp := false } := .of_eq rfl ⟨[], by simp, by simp⟩
  unfold unlinked
  dsimp only
  split
  · rename_i f hslot
    have hfree : Syncs { c with radioSendTx := false, radioUp := false }
        { c with radioSendTx := false, radioUp := false, inFlight := none } := .of_eq rfl ⟨[], by simp, by simp⟩
    exact ((hlink.trans hfree).trans failTo_syncs).trans ended_syncs
  · exact hlink

theorem advanceFromSync_syncs {qs : List Queued} (hsync : ∀ q ∈ qs, IsSync q) : Syncs c (c.advanceFromSync env qs) := by
  cases qs with
  | nil => exact .of_eq rfl ⟨[], by simp [advanceFromSync], by simp⟩
  | cons q rest =>
    have hq := hsync q List.mem_cons_self
    have hpop : Syncs c (c.popped rest) := .of_eq rfl ⟨[], by simp [popped], by simp⟩
    simp only [advanceFromSync, show { c with pendingQueue := rest } = c.popped rest from rfl,
      isEligible_of_internal hq.1, failTo_of_internal hq.1, Bool.not_true, Bool.false_eq_true, if_false]
    split
    · exact hpop.trans ended_syncs
    · split
      · exact hpop.trans ended_syncs
      · exact hpop.trans ⟨[q], ⟨rfl, rfl, [.radio q], rfl, rfl⟩, by simpa using hq⟩

theorem syncFromRadio_syncs (hqueue : c.pendingQueue = []) : Syncs c (c.syncFromRadio env) := by
  have hpushes (payloads : List Command) (c : Core) :
      Syncs c (payloads.foldl (fun c payload => c.pushBack none payload) c) := by
    induction payloads generalizing c with
    | nil => exact .refl
    | cons payload payloads ih =>
      have hpush : Syncs c (c.pushBack none payload) :=
        .of_eq rfl ⟨[.handed ⟨none, payload, c.nextTicket⟩], rfl, by simp⟩
      exact hpush.trans (ih _)
  have hqueued : Syncs c c.syncQueued := by
    have hall : c.syncQueued = (getContacts :: (List.range c.maxChannels.toNat).map fun idx =>
        getChannel (UInt8.ofNat idx)).foldl (fun c payload => c.pushBack none payload) c := by
      rw [List.foldl_cons, List.foldl_map]
      rfl
    exact hall ▸ hpushes _ c
  obtain ⟨-, -, -, hsync⟩ := syncQueued_moves False env none hqueue
  rw [syncFromRadio_eq]
  split
  · exact hqueued.trans (advanceFromSync_syncs hsync)
  · exact hqueued

theorem Attempted.syncs {a : Attempt} {ok : Bool} (h : Attempted c a ok c₁) (hqueue : c.pendingQueue = []) :
    Syncs c c₁ := by
  have hlink (c : Core) (link up : Bool) : Syncs c { c with radioSendTx := link, radioUp := up } :=
    .of_eq rfl ⟨[], by simp, by simp⟩
  cases h with
  | unconnected => exact .refl
  | uninitialized hs => exact ((hlink c true _).trans (hs.syncs fun _ hq => nomatch hq.lane)).trans (hlink _ false _)
  | synced hs =>
    have hinit := (hlink c true _).trans (hs.syncs fun _ hq => nomatch hq.lane)
    exact (hinit.trans (syncFromRadio_syncs (hs.queue.trans hqueue))).trans (hlink _ _ true)

theorem reconnectLoop_syncs {attempts : List Attempt} (h : c.reconnectLoop attempts = .ok c₁)
    (hqueue : c.pendingQueue = []) (hfree : c.inFlight = none) : Syncs c c₁ := by
  induction attempts generalizing c with
  | nil =>
    cases h
    exact .refl
  | cons a rest ih =>
    obtain ⟨⟨ok, c₂⟩, hattempt, h⟩ := Except.of_bind_eq_ok h
    have hattempted := attemptRadio_attempted hattempt
    cases ok with
    | true =>
      cases h
      exact hattempted.syncs hqueue
    | false =>
      obtain ⟨hfree₂, hqueue₂⟩ := hattempted.free_of_failed hfree hqueue
      exact (hattempted.syncs hqueue).trans (ih h hqueue₂ hfree₂)

theorem reconnectRadio_syncs {attempts : List Attempt} (h : c.reconnectRadio attempts = .ok c₁) : Syncs c c₁ := by
  obtain ⟨hfree, hqueue⟩ := failAll_drain.done_free (unlinked_free (c := c))
  exact (unlinked_syncs.trans failAll_drain.syncs).trans (reconnectLoop_syncs h hqueue hfree)

/-- The start of the proxy leaves the tables as it finds them. -/
theorem start_syncs {config : Config} {db : NodeState} {first : Attempt} {attempts : List Attempt}
    (h : (Core.new config db).start env first attempts = .ok c) : Syncs (Core.new config db) c := by
  obtain ⟨⟨ok, c₁⟩, hfirst, h⟩ := Except.of_bind_eq_ok h
  have h₁ := (attemptRadio_attempted hfirst).syncs rfl
  dsimp only at h
  split at h
  · exact h₁.trans ((restoreBlobs_still (t := none) h).syncs fun _ hq => nomatch hq.lane)
  · obtain ⟨c₂, hreconnect, h⟩ := Except.of_bind_eq_ok h
    exact (h₁.trans (reconnectRadio_syncs hreconnect)).trans
      ((restoreBlobs_still (t := none) h).syncs fun _ hq => nomatch hq.lane)

/-! ### Maintenance -/

/-- The contacts last seen before this go, if any: the sync time is known and no call fails before. -/
def contactsCut (c : Core) (env : Env) : Option Int :=
  let r := c.config.retention
  if r.contactsDays > 0 ∧ (r.messagesDays > 0 → env.dbOk .purgeMessages = true) ∧
    (r.rawRxDays > 0 → env.dbOk .purgeRawRx = true) ∧
      env.dbOk .readSyncedAt = true ∧ env.dbOk .purgeContacts = true then
    c.db.contactsSyncedAt.map (NodeState.contactThreshold env.unix r.contactsDays)
  else none

def contactSweep (c : Core) (env : Env) : List (Change Bytes ContactRow) :=
  (c.contactsCut env).toList.map fun threshold => .sweep fun _ r => !decide (r.seenAt.getD 0 < threshold)

/-- A call of `maintain` that does not concern the contacts. -/
theorem purge_elsewhere (env : Env) (q : Prop) [Decidable q] (call : DbCall) {g : NodeState → NodeState}
    (s : NodeState × Bool) (hcontacts : ∀ db, (g db).contacts = db.contacts) (hkv : ∀ db, (g db).kv = db.kv) :
    (if q then purge env call g s else s).1.contacts = s.1.contacts ∧
    (if q then purge env call g s else s).1.kv = s.1.kv ∧
    ((if q then purge env call g s else s).2 = true ↔ s.2 = true ∧ (q → env.dbOk call = true)) := by
  unfold purge
  split
  · rename_i hq
    cases hs : s.2 <;> cases hok : env.dbOk call <;> simp [hq, hcontacts, hkv]
  · rename_i hq
    simp [hq]

theorem contactsSyncedAt_of_kv {db db' : NodeState} (h : db'.kv = db.kv) :
    db'.contactsSyncedAt = db.contactsSyncedAt := by
  simp only [NodeState.contactsSyncedAt, NodeState.kvGet, h]

theorem maintain_contacts : (c.maintain env).db.contacts = Change.replay (c.contactSweep env) c.db.contacts := by
  let r := c.config.retention
  obtain ⟨hcontacts₁, hkv₁, hok₁⟩ := purge_elsewhere env (r.messagesDays > 0) .purgeMessages
    (g := (·.purgeMessages env.unix r.messagesDays)) (c.db, true) (fun _ => rfl) fun _ => rfl
  obtain ⟨hcontacts₂, hkv₂, hok₂⟩ := purge_elsewhere env (r.rawRxDays > 0) .purgeRawRx
    (g := (·.purgeRawRx env.unix r.rawRxDays)) _ (fun _ => rfl) fun _ => rfl
  refine (purge_elsewhere env (r.clientsDays > 0) .purgeClients (g := (·.purgeClients env.unix r.clientsDays)) _
    (fun _ => rfl) fun _ => rfl).1.trans ?_
  rw [hok₁] at hok₂
  have hsynced := contactsSyncedAt_of_kv (hkv₂.trans hkv₁)
  rw [hcontacts₁] at hcontacts₂
  generalize (if r.rawRxDays > 0 then _ else _) = s at hcontacts₂ hok₂ hsynced ⊢
  have hcut : c.contactsCut env = if r.contactsDays > 0 ∧ s.2 = true ∧ env.dbOk .readSyncedAt = true ∧
      env.dbOk .purgeContacts = true then s.1.contactsSyncedAt.map (NodeState.contactThreshold env.unix r.contactsDays)
      else none := by
    rw [hsynced]
    refine if_congr (and_congr_right fun _ => ?_) rfl rfl
    rw [hok₂]
    tauto
  rw [contactSweep, hcut, ← hcontacts₂]
  dsimp only
  by_cases hdays : r.contactsDays > 0
  · rw [if_pos hdays]
    unfold purge
    cases hok : s.2 <;> cases hread : env.dbOk .readSyncedAt <;> cases hpurge : env.dbOk .purgeContacts <;>
      cases hsynced : s.1.contactsSyncedAt <;>
      simp [hdays, hsynced, NodeState.purgeContacts, Change.apply, r]
  · rw [if_neg hdays]
    simp [hdays]

theorem maintain_channels : (c.maintain env).db.channels = c.db.channels := by
  have hpurge {call : DbCall} {g : NodeState → NodeState} {s : NodeState × Bool}
      (h : ∀ db, (g db).channels = db.channels) : (purge env call g s).1.channels = s.1.channels := by
    unfold purge
    split
    · exact h s.1
    · rfl
  have hstage (q : Prop) [Decidable q] {s s' : NodeState × Bool} (h : s'.1.channels = s.1.channels) :
      (if q then s' else s).1.channels = s.1.channels := by
    split
    · exact h
    · rfl
  let r := c.config.retention
  refine (hstage (r.clientsDays > 0) (hpurge (g := (·.purgeClients env.unix r.clientsDays)) fun _ => rfl)).trans ?_
  refine (hstage (r.contactsDays > 0) ?_).trans ?_
  · dsimp only
    generalize (if r.rawRxDays > 0 then _ else _ : NodeState × Bool) = s
    split
    · exact (hpurge (g := (·.purgeContacts _)) fun _ => rfl).trans (hpurge (g := id) fun _ => rfl)
    · exact hpurge (g := id) fun _ => rfl
  · exact (hstage (r.rawRxDays > 0) (hpurge (g := (·.purgeRawRx env.unix r.rawRxDays)) fun _ => rfl)).trans
      (hstage (r.messagesDays > 0) (hpurge (g := (·.purgeMessages env.unix r.messagesDays)) fun _ => rfl))

theorem maintain_journals (c : Core) (env : Env) : Journals (c.contactSweep env) [] [] c (c.maintain env) :=
  ⟨maintain_contacts, maintain_channels, [], by simp [maintain], rfl⟩

/-- The time of the last sync is only set as a full GET_CONTACTS is accepted. -/
theorem Call.contactsSyncedAt {S : Scope} {db db' : NodeState} (h : Call S db db') :
    db'.contactsSyncedAt = db.contactsSyncedAt ∨
    ∃ f, S.Accepts f ∧ (f.cmdCode = 0x04 ∧ f.payload.bytes.length = 1) ∧
      db'.contactsSyncedAt = (db.setContactsSyncedAt f.sentUnix).contactsSyncedAt := by
  cases h with
  | kvSet hkey value =>
    refine Or.inl ?_
    simp only [NodeState.contactsSyncedAt, NodeState.kvGet, NodeState.kvSet, Table.lookup_insert_eq, if_neg hkey.symm]
  | setContactsSyncedAt h hsync => exact Or.inr ⟨_, h, hsync, rfl⟩
  | _ => exact Or.inl rfl

/-- What accepts no request keeps the time of the last sync. -/
theorem Writes.synced {S : Scope} (h : Writes S c c₁) (hdone : ∀ f, ¬S.done f) :
    c₁.db.contactsSyncedAt = c.db.contactsSyncedAt := by
  refine h.keeps (P := fun c₁ => c₁.db.contactsSyncedAt = c.db.contactsSyncedAt) rfl fun c₁ c₂ hw h => ?_
  rw [← h]
  rcases hw.calls with hcalls | ⟨-, env, -, rfl⟩
  · clear h hw
    generalize c₁.db = db₁ at hcalls
    generalize c₂.db = db₂ at hcalls
    induction hcalls with
    | refl => rfl
    | tail _ hcall ih =>
      rcases hcall.contactsSyncedAt with h | ⟨f, h, -⟩
      · exact h.trans ih
      · exact absurd h.done (hdone f)
  · exact contactsSyncedAt_of_kv (maintain_purged c₁ env).kv

theorem advanceQueue_synced : (c.advanceQueue env).db.contactsSyncedAt = c.db.contactsSyncedAt :=
  (advanceQueue_writes (S := aside env) rfl).synced fun _ => id

theorem resync_synced : (c.resync env).db.contactsSyncedAt = c.db.contactsSyncedAt := by
  unfold resync
  dsimp only
  split
  · split
    · exact advanceQueue_synced (c := c.pushBack none getContacts)
    · rfl
  · rfl

theorem resync_config : (c.resync env).config = c.config := by
  have hadvance (c : Core) : (c.advanceQueue env).config = c.config := congrArg Prod.fst (advanceQueue_quiet env).mail
  unfold resync
  dsimp only
  split
  · split
    · exact hadvance (c.pushBack none getContacts)
    · rfl
  · rfl

/-- What the maintenance does: requests are sent, then the contacts are swept. -/
theorem runMaintenance_journals (c : Core) (env : Env) : ∃ sent,
    Journals ((sent.flatMap fun q => q.payload.contactTake env.dbOk) ++ c.contactSweep env)
      (sent.flatMap fun q => q.payload.channelTake env.dbOk) sent c (c.runMaintenance env) := by
  have hworks : Works env c (c.resync env) := resync_works
  obtain ⟨sent, hsent⟩ := hworks.moves.takes
  have hsweep : (c.resync env).contactSweep env = c.contactSweep env := by
    simp only [contactSweep, contactsCut, resync_synced, resync_config]
  have hall := hsent.trans (maintain_journals (c.resync env) env)
  rw [hsweep, List.append_nil, List.append_nil] at hall
  exact ⟨sent, hall⟩

/-! ### Turns -/

theorem checkInFlightTimeout_takes (c : Core) (env : Env) : Takes env.dbOk c (c.checkInFlightTimeout env) := by
  rcases checkInFlightTimeout_cases c env with h | ⟨f, hslot, -, h, -⟩
  · exact h.symm ▸ .refl
  · have hfree : Takes env.dbOk c { c with inFlight := none } := .of_eq rfl rfl ⟨[], by simp, by simp⟩
    exact ((hfree.trans failTo_takes).trans ended_takes).trans h.takes

end

/-- Which calls succeed in a turn that sends what clients asked for. -/
def Event.ok : Event → DbCall → Bool
  | .command env _ | .radio env _ | .timeoutTick env | .maintenanceTick env => env.dbOk
  | .disconnected _ | .idle => fun _ => true

namespace Lap

/-- What a turn changes in the contacts: a frame is put, requests take, and maintenance sweeps. -/
def contactChanges (s : Lap) : List (Change Bytes ContactRow) :=
  let takes := (sentToRadio s.after.out).flatMap fun q => q.payload.contactTake s.event.ok
  match s.event with
  | .radio env frame => contactPut env frame ++ takes
  | .maintenanceTick env => takes ++ s.before.contactSweep env
  | _ => takes

/-- What a turn changes in the channels. -/
def channelChanges (s : Lap) : List (Change Int CachedChannel) :=
  let takes := (sentToRadio s.after.out).flatMap fun q => q.payload.channelTake s.event.ok
  match s.event with
  | .radio env frame => channelPut env frame ++ takes
  | _ => takes

end Lap

section
variable {c c₀ c₁ : Core} {frontend : List (List FrontendOp)} {e : Event} {h : List Effect} {l : List Lap}

theorem IsSync.takes_nothing {q : Queued} {ok : DbCall → Bool} (hq : IsSync q) :
    q.payload.contactTake ok = [] ∧ q.payload.channelTake ok = [] := by
  rcases hq.2 with hcode | hcode <;>
    simp [Command.contactTake, Command.removedContact, Command.channelTake, Command.writtenChannel, hcode]

/-- The tables after a turn. -/
theorem step_journals (hvalid : c.clients.Valid) (hs : c.step frontend e = .ok c₁) :
    c₁.db.contacts = Change.replay (Lap.contactChanges ⟨c, frontend, e, c₁⟩) c.db.contacts ∧
    c₁.db.channels = Change.replay (Lap.channelChanges ⟨c, frontend, e, c₁⟩) c.db.channels := by
  have hsent {contacts channels sent} (hj : Journals contacts channels sent (c.begin frontend) c₁) :
      sentToRadio c₁.out = sent := by
    obtain ⟨es, hout, hes⟩ := hj.out
    rw [hout]
    exact hes
  cases e with
  | command env cmd =>
    have hvalid' : (c.begin frontend).clients.Valid := ⟨hvalid.born, hvalid.nodup⟩
    obtain ⟨sent, hj⟩ := (handleClientCommand_works hs hvalid').moves.takes
    obtain rfl := hsent hj
    exact ⟨hj.contacts, hj.channels⟩
  | radio env frame =>
    obtain ⟨sent, hj⟩ := handleRadioRx_journals hs
    obtain rfl := hsent hj
    exact ⟨hj.contacts, hj.channels⟩
  | timeoutTick env =>
    cases hs
    obtain ⟨sent, hj⟩ := checkInFlightTimeout_takes (c.begin frontend) env
    obtain rfl := hsent hj
    exact ⟨hj.contacts, hj.channels⟩
  | maintenanceTick env =>
    cases hs
    obtain ⟨sent, hj⟩ := runMaintenance_journals (c.begin frontend) env
    obtain rfl := hsent hj
    exact ⟨hj.contacts, hj.channels⟩
  | disconnected attempts =>
    obtain ⟨sent, hj, hsync⟩ := reconnectRadio_syncs hs
    obtain rfl := hsent hj
    have hcontacts : Lap.contactChanges ⟨c, frontend, .disconnected attempts, c₁⟩ = [] :=
      List.flatMap_eq_nil_iff.mpr fun q hq => (hsync q hq).takes_nothing.1
    have hchannels : Lap.channelChanges ⟨c, frontend, .disconnected attempts, c₁⟩ = [] :=
      List.flatMap_eq_nil_iff.mpr fun q hq => (hsync q hq).takes_nothing.2
    rw [hcontacts, hchannels]
    exact ⟨hj.contacts, hj.channels⟩
  | idle =>
    cases hs
    exact ⟨rfl, rfl⟩

/-- The tables after a run. -/
theorem Trace.journals (ha : Accounted False h c₀) (ht : Trace c₀ l c) :
    c.db.contacts = Change.replay (l.flatMap Lap.contactChanges) c₀.db.contacts ∧
    c.db.channels = Change.replay (l.flatMap Lap.channelChanges) c₀.db.channels := by
  induction ht generalizing h with
  | nil => exact ⟨rfl, rfl⟩
  | @cons c c₁ c₂ frontend e l hs _ ih =>
    obtain ⟨hcontacts, hchannels⟩ := step_journals ha.valid hs
    have hstep := (handle_ledger hs ha.begin False.elim False.elim).1
    obtain ⟨hcontacts', hchannels'⟩ := ih hstep
    rw [List.flatMap_cons, List.flatMap_cons, Change.replay_append, Change.replay_append, ← hcontacts, ← hchannels]
    exact ⟨hcontacts', hchannels'⟩

end
end Core
end CoreSplitter
