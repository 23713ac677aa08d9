import Mathlib.Logic.Relation
import CoreSplitter.Core.Handlers
import CoreSplitter.Lib.Lane

/-! What a handler does to the radio queue, as a chain of moves: an entry is submitted, starts on the radio,
    is refused by it or dropped, and everything else keeps the queue. What happens to the request in flight
    (`replyPart`, `finish`, `expire`, `loseInFlight`) is no move: each handler does at most one of these,
    and moves before and after it. -/

namespace CoreSplitter
open Bytes

/-! ### Connected clients -/

namespace Clients

/-- `t` comes after `s`: an id that was given out is not given out again. -/
structure Later (s t : Clients) : Prop where
  nextId : s.nextId ≤ t.nextId
  old : ∀ cid ∈ t.channels, cid < s.nextId → cid ∈ s.channels

/-- A channel for each client that is connected, under an id that was given out. -/
structure Valid (s : Clients) : Prop where
  born : ∀ cid ∈ s.channels, cid < s.nextId
  nodup : s.channels.Nodup

variable {s t u : Clients}

theorem Later.refl : Later s s := ⟨Nat.le_refl _, fun _ h _ => h⟩

theorem Later.trans (h₁ : Later s t) (h₂ : Later t u) : Later s u where
  nextId := Nat.le_trans h₁.nextId h₂.nextId
  old cid hu hlt := h₁.old cid (h₂.old cid hu (Nat.lt_of_lt_of_le hlt h₁.nextId)) hlt

theorem apply_later {op : FrontendOp} : Later s (s.apply op) := by
  cases op with
  | connect =>
    refine ⟨Nat.le_succ _, fun cid h hlt => ?_⟩
    rcases List.mem_append.mp h with h | h
    · exact h
    · exact absurd (List.mem_singleton.mp h) (Nat.ne_of_lt hlt)
  | disconnect cid => exact ⟨Nat.le_refl _, fun _ h _ => (List.mem_filter.mp h).1⟩

theorem apply_valid {op : FrontendOp} (h : s.Valid) : (s.apply op).Valid := by
  cases op with
  | connect =>
    constructor
    · intro cid hcid
      rcases List.mem_append.mp hcid with hcid | hcid
      · exact Nat.lt_succ_of_lt (h.born cid hcid)
      · exact List.mem_singleton.mp hcid ▸ Nat.lt_succ_self _
    · refine List.nodup_append.mpr ⟨h.nodup, List.nodup_singleton _, fun cid hcid cid' hcid' => ?_⟩
      exact List.mem_singleton.mp hcid' ▸ Nat.ne_of_lt (h.born cid hcid)
  | disconnect cid => exact ⟨fun cid' hcid => h.born cid' (List.mem_filter.mp hcid).1, h.nodup.filter _⟩

theorem foldl_apply_later {ops : List FrontendOp} : Later s (ops.foldl apply s) := by
  induction ops generalizing s with
  | nil => exact .refl
  | cons op ops ih => exact apply_later.trans ih

theorem foldl_apply_valid {ops : List FrontendOp} (h : s.Valid) : (ops.foldl apply s).Valid := by
  induction ops generalizing s with
  | nil => exact h
  | cons op ops ih => exact ih (apply_valid h)

theorem lock_later : Later s s.lock := by
  unfold lock
  split
  · exact .refl
  · rename_i ops rest _
    have h : Later s { s with schedule := rest } := ⟨Nat.le_refl _, fun _ h _ => h⟩
    exact h.trans foldl_apply_later

theorem lock_valid (h : s.Valid) : s.lock.Valid := by
  unfold lock
  split
  · exact h
  · exact foldl_apply_valid ⟨h.born, h.nodup⟩

/-- The core only takes the lock. -/
def Onward (s t : Clients) : Prop := Relation.ReflTransGen (fun s t => t = s.lock) s t

theorem Onward.refl : Onward s s := Relation.ReflTransGen.refl

theorem Onward.trans (h₁ : Onward s t) (h₂ : Onward t u) : Onward s u := Relation.ReflTransGen.trans h₁ h₂

theorem lock_onward : Onward s s.lock := .single rfl

theorem Onward.later (h : Onward s t) : Later s t := by
  induction h with
  | refl => exact .refl
  | tail _ heq ih => exact heq ▸ ih.trans lock_later

theorem Onward.valid (h : Onward s t) (hvalid : s.Valid) : t.Valid := by
  induction h with
  | refl => exact hvalid
  | tail _ heq ih => exact heq ▸ lock_valid ih

/-- The client is connected, and does not disconnect as long as the schedule goes. -/
structure Stays (s : Clients) (cid : ClientId) : Prop where
  connected : cid ∈ s.channels
  remains : ∀ ops ∈ s.schedule, .disconnect cid ∉ ops

theorem apply_connected {op : FrontendOp} {cid : ClientId} (h : cid ∈ s.channels) (hop : op ≠ .disconnect cid) :
    cid ∈ (s.apply op).channels := by
  cases op with
  | connect => exact List.mem_append_left _ h
  | disconnect cid' =>
    refine List.mem_filter.mpr ⟨h, ?_⟩
    have hne : cid ≠ cid' := fun heq => hop (heq ▸ rfl)
    simpa using hne

theorem foldl_apply_connected {ops : List FrontendOp} {cid : ClientId} (h : cid ∈ s.channels)
    (hops : .disconnect cid ∉ ops) : cid ∈ (ops.foldl apply s).channels := by
  induction ops generalizing s with
  | nil => exact h
  | cons op ops ih =>
    have hop : FrontendOp.disconnect cid ≠ op := List.ne_of_not_mem_cons hops
    have hrest : .disconnect cid ∉ ops := List.not_mem_of_not_mem_cons hops
    exact ih (apply_connected h (Ne.symm hop)) hrest

theorem foldl_apply_schedule {ops : List FrontendOp} : (ops.foldl apply s).schedule = s.schedule := by
  induction ops generalizing s with
  | nil => rfl
  | cons op ops ih => rw [List.foldl_cons, ih]; cases op <;> rfl

theorem Stays.lock {cid : ClientId} (h : s.Stays cid) : s.lock.Stays cid := by
  unfold Clients.lock
  split
  · exact h
  · rename_i ops rest hschedule
    have hops : ∀ l ∈ ops :: rest, .disconnect cid ∉ l := hschedule ▸ h.remains
    refine ⟨foldl_apply_connected h.connected (hops ops List.mem_cons_self), ?_⟩
    rw [foldl_apply_schedule]
    exact fun l hl => hops l (List.mem_cons_of_mem _ hl)

theorem Onward.stays {cid : ClientId} (h : Onward s t) (hs : s.Stays cid) : t.Stays cid := by
  induction h with
  | refl => exact hs
  | tail _ heq ih => exact heq ▸ ih.lock

/-- The client is connected at some time before the schedule is through. -/
def Meets (s : Clients) (cid : ClientId) : Prop := ∃ t, Onward s t ∧ cid ∈ t.channels

theorem Onward.meets {cid : ClientId} (h : Onward s t) (ht : t.Meets cid) : s.Meets cid :=
  ht.imp fun _ hu => ⟨h.trans hu.1, hu.2⟩

end Clients

/-! ### Effects -/

namespace Effect

def laneEvent : Effect → Option (Lane.Event Queued)
  | .handed q => some (.submit q)
  | .radio q => some (.start q)
  | .ended q how =>
    match how with
    | .replied _ | .timedOut | .linkLost => some (.finish q)
    | .drained | .sendFailed | .clientGone => some (.drop q)
  | _ => none

/-- A frame for the client of a request, from the radio or instead of it. -/
def isAnswer : Effect → Bool
  | .client _ _ _ _ (.reply _) | .client _ _ _ _ (.error _) => true
  | _ => false

/-- A frame of the radio that goes to clients as it is, up to its layout. -/
def isRelayed : Effect → Bool
  | .client _ _ _ _ (.reply _) | .client _ _ _ _ (.fanout _) | .client _ _ _ _ .ack | .broadcast _ => true
  | _ => false

/-- The request an effect is due to, when it does not move it. -/
def about : Effect → Option Ticket
  | .client _ _ _ _ (.reply t) | .client _ _ _ _ (.error t) | .client _ _ _ _ (.fanout t)
  | .client _ _ _ _ (.echo t) | .ackPending t _ => some t
  | .accepted q => some q.ticket
  | _ => none

/-- Moves and answers no request, relays no frame, and is due to `t` if to any. -/
structure Side (t : Option Ticket) (e : Effect) : Prop where
  lane : e.laneEvent = none
  answer : e.isAnswer = false
  relayed : e.isRelayed = false
  about : e.about = none ∨ e.about = t

/-- What the radio's own frames make the core emit. -/
structure Unasked (e : Effect) : Prop where
  lane : e.laneEvent = none
  answer : e.isAnswer = false
  about : e.about = none

/-- What the reply to a request makes the core emit. -/
structure OfReply (f : InFlight) (e : Effect) : Prop where
  lane : e.laneEvent = none
  about : e.about = some f.ticket

end Effect

namespace Core

/-- What the queue holds, and the request in flight. -/
def lane (c : Core) : Lane Queued := ⟨c.pendingQueue, c.inFlight.map InFlight.request⟩

/-- The queue holds nothing unless a request is in flight. -/
def Idle (c : Core) : Prop := c.inFlight = none → c.pendingQueue = []

/-! ### What keeps the queue -/

/-- The queue, the slot and the link stay, and every effect satisfies `p`. -/
structure Kept (p : Effect → Prop) (c c' : Core) : Prop where
  queue : c'.pendingQueue = c.pendingQueue
  slot : c'.inFlight = c.inFlight
  tickets : c'.nextTicket = c.nextTicket
  link : c'.radioSendTx = c.radioSendTx
  config : c'.config = c.config
  clients : c.clients.Onward c'.clients
  valid : c.clients.Valid → c'.clients.Valid
  out : ∃ es, c'.out = c.out ++ es ∧ ∀ e ∈ es, p e

/-- `Kept`, and the cached contacts and channels stay too. -/
structure Still (p : Effect → Prop) (c c' : Core) : Prop extends Kept p c c' where
  contacts : c'.db.contacts = c.db.contacts
  channels : c'.db.channels = c.db.channels

section
variable {p : Effect → Prop} {t : Option Ticket} {c c₁ c₂ : Core}

theorem Kept.refl : Kept p c c := ⟨rfl, rfl, rfl, rfl, rfl, .refl, id, [], by simp, List.forall_mem_nil _⟩

theorem Kept.trans (h₁ : Kept p c c₁) (h₂ : Kept p c₁ c₂) : Kept p c c₂ where
  queue := h₂.queue.trans h₁.queue
  slot := h₂.slot.trans h₁.slot
  tickets := h₂.tickets.trans h₁.tickets
  link := h₂.link.trans h₁.link
  config := h₂.config.trans h₁.config
  clients := h₁.clients.trans h₂.clients
  valid := h₂.valid ∘ h₁.valid
  out := by
    obtain ⟨es₁, ho₁, hs₁⟩ := h₁.out
    obtain ⟨es₂, ho₂, hs₂⟩ := h₂.out
    refine ⟨es₁ ++ es₂, by rw [ho₂, ho₁, List.append_assoc], fun e he => ?_⟩
    exact (List.mem_append.mp he).elim (hs₁ e) (hs₂ e)

theorem Kept.silent (h : Kept (fun _ => False) c c₁) : c₁.out = c.out := by
  obtain ⟨es, hout, hes⟩ := h.out
  rw [hout, List.eq_nil_iff_forall_not_mem.mpr hes, List.append_nil]

theorem Still.refl : Still p c c := ⟨.refl, rfl, rfl⟩

theorem Still.trans (h₁ : Still p c c₁) (h₂ : Still p c₁ c₂) : Still p c c₂ :=
  ⟨h₁.toKept.trans h₂.toKept, h₂.contacts.trans h₁.contacts, h₂.channels.trans h₁.channels⟩

/-- The fields that `Kept` speaks of. -/
def keptPart (c : Core) :=
  (c.pendingQueue, c.inFlight, c.nextTicket, c.radioSendTx, c.config, c.clients, c.out)

theorem Kept.of_eq (h : c₁.keptPart = c.keptPart) : Kept p c c₁ := by
  simp only [keptPart, Prod.mk.injEq] at h
  obtain ⟨hq, hs, ht, hl, hc, hcl, ho⟩ := h
  exact ⟨hq, hs, ht, hl, hc, hcl ▸ .refl, hcl ▸ id, [], by simp [ho], List.forall_mem_nil _⟩

theorem Still.of_eq (h : c₁.keptPart = c.keptPart) (hcontacts : c₁.db.contacts = c.db.contacts)
    (hchannels : c₁.db.channels = c.db.channels) : Still p c c₁ := ⟨.of_eq h, hcontacts, hchannels⟩

theorem Kept.of_if {q : Prop} [Decidable q] (h : q → Kept p c c₁) : Kept p c (if q then c₁ else c) := by
  split
  · exact h ‹_›
  · exact .refl

theorem Still.of_if {q : Prop} [Decidable q] (h : q → Still p c c₁) : Still p c (if q then c₁ else c) := by
  split
  · exact h ‹_›
  · exact .refl

theorem still_foldl {α : Type} {f : Core → α → Core} (h : ∀ c a, Still p c (f c a)) {l : List α} :
    Still p c (l.foldl f c) := by
  induction l generalizing c with
  | nil => exact .refl
  | cons a l ih => exact (h c a).trans ih

/-! ### Clients -/

theorem lockClients_still : Still p c c.lockClients :=
  ⟨⟨rfl, rfl, rfl, rfl, rfl, Clients.lock_onward, Clients.lock_valid, [], (List.append_nil _).symm,
    List.forall_mem_nil _⟩, rfl, rfl⟩

theorem emit_still {e : Effect} (h : p e) : Still p c (c.emit e) :=
  ⟨⟨rfl, rfl, rfl, rfl, rfl, .refl, id, [e], rfl, fun _ he => List.mem_singleton.mp he ▸ h⟩, rfl, rfl⟩

theorem Still.emit {e : Effect} (h : Still p c c₁) (he : p e) : Still p c (c₁.emit e) := h.trans (emit_still he)

/-- A frame put on one channel, if that is connected. -/
theorem sendToClient_out {cid : ClientId} {payload : Bytes} {why : Why} :
    (c.sendToClient cid payload why).out = c.out ++
    (if cid ∈ (c.sendToClient cid payload why).clients.channels then [c.delivery cid payload why] else []) := by
  unfold sendToClient
  dsimp only
  split
  · rename_i hmem
    have hmem : cid ∈ (c.lockClients.emit (c.lockClients.delivery cid payload why)).clients.channels :=
      List.contains_iff_mem.mp hmem
    rw [if_pos hmem]
    rfl
  · rename_i hgone
    have hgone : cid ∉ c.lockClients.clients.channels := fun hmem => hgone (List.contains_iff_mem.mpr hmem)
    rw [if_neg hgone, List.append_nil]
    rfl

theorem sendToClient_still {cid : ClientId} {payload : Bytes} {why : Why}
    (h : ∀ who version frame, p (.client cid who version frame why)) : Still p c (c.sendToClient cid payload why) :=
  lockClients_still.trans (.of_if fun _ => emit_still (h ..))

theorem sendAllToClient_still {cid : ClientId} {payloads : List Bytes} {why : Why}
    (h : ∀ who version frame, p (.client cid who version frame why)) :
    Still p c (c.sendAllToClient cid payloads why) :=
  still_foldl fun _ _ => sendToClient_still h

theorem broadcastToOthers_still {exclude : Option ClientId} {payload : Bytes} {why : Why}
    (h : ∀ cid who version frame, p (.client cid who version frame why)) :
    Still p c (c.broadcastToOthers exclude payload why) := by
  refine lockClients_still.trans ⟨⟨rfl, rfl, rfl, rfl, rfl, .refl, id, _, rfl, fun e he => ?_⟩, rfl, rfl⟩
  obtain ⟨cid, -, rfl⟩ := List.mem_map.mp he
  exact h ..

/-! ### Messages -/

variable {env : Env} {cid : ClientId}

theorem advanceClientCursor_still {who : Identity} {id : MessageId} :
    Still (Effect.Side t) c (c.advanceClientCursor env who id) :=
  .of_eq rfl rfl rfl

theorem followHead_still {id : MessageId} : Still (Effect.Side t) c (c.followHead env id) := by
  have hdrop : Still (Effect.Side t) c c.dropGoneSessions := lockClients_still.trans (.of_eq rfl rfl rfl)
  exact hdrop.trans (still_foldl fun _ _ => .of_if fun _ => advanceClientCursor_still)

theorem storeMessage_still {msg : NewMessage} : Still (Effect.Side t) c (c.storeMessage env msg) := by
  unfold storeMessage
  split
  · have hinsert : Still (Effect.Side t) c { c with db := c.db.insertMessage env.unix msg } := .of_eq rfl rfl rfl
    exact (hinsert.trans (emit_still ⟨rfl, rfl, rfl, Or.inl rfl⟩)).trans followHead_still
  · exact .refl

theorem registerSession_still {cmd : ClientCommand} : Still (Effect.Side t) c (c.registerSession env cmd) := by
  by_cases h : env.dbOk .registerAdvance = true
  · simp only [registerSession, h, if_true]
    exact advanceClientCursor_still.trans (.of_eq rfl rfl rfl)
  · simp only [registerSession, h]
    exact .of_eq rfl rfl rfl

theorem notifyMissed_still : Still (Effect.Side t) c (c.notifyMissed cid) := by
  unfold notifyMissed
  split
  · split
    · exact .refl
    · exact sendToClient_still fun _ _ _ => ⟨rfl, rfl, rfl, Or.inl rfl⟩
  · exact .refl

theorem replayPending_still {s : Session} {pending : List MessageId} :
    Still (Effect.Side t) c (c.replayPending env cid s pending).2 := by
  induction pending generalizing c with
  | nil => exact .refl
  | cons id rest ih =>
    have hpop : Still (Effect.Side t) c (c.setPending cid s rest) := .of_eq rfl rfl rfl
    simp only [replayPending]
    split
    · exact hpop.trans ih
    · exact (hpop.trans (sendToClient_still fun _ _ _ => ⟨rfl, rfl, rfl, Or.inl rfl⟩)).trans
        (.of_if fun _ => advanceClientCursor_still)

theorem replayNextMissed_still : Still (Effect.Side t) c (c.replayNextMissed env cid).2 := by
  unfold replayNextMissed
  split
  · exact .refl
  · exact replayPending_still.trans (.of_if fun _ => advanceClientCursor_still)

theorem synthesizeEcho_still {done : InFlight} {echo : NewMessage} :
    Still (Effect.Side (some done.ticket)) c (c.synthesizeEcho env cid done echo) :=
  (broadcastToOthers_still fun _ _ _ _ => ⟨rfl, rfl, rfl, Or.inr rfl⟩).trans storeMessage_still

/-! ### Cache -/

theorem serveBlob_still {blob : Option Bytes} : Still (Effect.Side t) c (c.serveBlob cid blob).2 := by
  cases blob with
  | none => exact .refl
  | some blob => exact sendToClient_still fun _ _ _ => ⟨rfl, rfl, rfl, Or.inl rfl⟩

theorem tryServeFromCache_still {code : UInt8} {cmd : ClientCommand} :
    Still (Effect.Side t) c (c.tryServeFromCache env code cmd).2 := by
  unfold tryServeFromCache
  split
  · exact serveBlob_still
  · exact serveBlob_still
  · exact serveBlob_still
  · split
    · exact sendAllToClient_still fun _ _ _ => ⟨rfl, rfl, rfl, Or.inl rfl⟩
    · exact .refl
  · dsimp only
    split
    · split
      · exact sendToClient_still fun _ _ _ => ⟨rfl, rfl, rfl, Or.inl rfl⟩
      · exact .refl
    · exact .refl
  · exact .refl

theorem extractRadioIdentity_still {blob : Bytes} (h : c.extractRadioIdentity blob = .ok c₁) :
    Still (Effect.Side t) c c₁ := by
  obtain ⟨d, -, h⟩ := Except.of_bind_eq_ok h
  have hkey : Still (Effect.Side t) c (if h : 36 ≤ blob.length then
      { c with radioPubkey := some ⟨slice blob 4 36 ⟨by omega, h⟩, by simp⟩ } else c) := by
    split
    · exact .of_eq rfl rfl rfl
    · exact .refl
  split at h <;> cases h
  · exact hkey.trans (.of_eq rfl rfl rfl)
  · exact hkey

theorem extractMaxChannels_still {blob : Bytes} (h : c.extractMaxChannels blob = .ok c₁) :
    Still (Effect.Side t) c c₁ := by
  obtain ⟨d, -, h⟩ := Except.of_bind_eq_ok h
  split at h <;> cases h
  · exact .of_if fun _ => .of_eq rfl rfl rfl
  · exact .refl

theorem kvSet_still {key : KvKey} {value : Bytes} : Still (Effect.Side t) c (c.kvSet env key value) :=
  .of_if fun _ => .of_eq rfl rfl rfl

/-- Only CONTACT and CHANNEL_INFO write to what is cached of the radio's tables. -/
theorem cacheResponse_still {code : UInt8} {payload : Bytes} (h : c.cacheResponse env code payload = .ok c₁)
    (hcontact : code ≠ 0x03) (hchannel : code ≠ 0x12) : Still (Effect.Side t) c c₁ := by
  unfold cacheResponse at h
  split at h
  · contradiction
  · obtain ⟨c₂, hc₂, h⟩ := Except.of_bind_eq_ok h
    cases h
    exact (kvSet_still.trans (extractRadioIdentity_still hc₂)).trans (.of_eq rfl rfl rfl)
  · cases h
    exact kvSet_still.trans (.of_eq rfl rfl rfl)
  · obtain ⟨c₂, hc₂, h⟩ := Except.of_bind_eq_ok h
    cases h
    exact (kvSet_still.trans (extractMaxChannels_still hc₂)).trans (.of_eq rfl rfl rfl)
  · obtain ⟨d, -, h⟩ := Except.of_bind_eq_ok h
    split at h <;> cases h
    · exact storeMessage_still
    · exact .refl
  · obtain ⟨d, -, h⟩ := Except.of_bind_eq_ok h
    split at h <;> cases h
    · exact storeMessage_still
    · exact .refl
  · cases h
    split
    · exact storeMessage_still
    · exact .refl
  · cases h
    split
    · exact storeMessage_still
    · exact .refl
  · contradiction
  · cases h
    exact .refl

theorem cacheResponse_contact {payload : Bytes} (h : c.cacheResponse env 0x03 payload = .ok c₁) :
    c₁ = if h : payload.length ≥ contactFrameLen then c.cacheContact env payload h else c := (Except.ok.inj h).symm

theorem cacheResponse_channel {payload : Bytes} (h : c.cacheResponse env 0x12 payload = .ok c₁) :
    c₁ = if h : payload.length ≥ 50 then c.cacheChannel env payload h else c := (Except.ok.inj h).symm

theorem cacheResponse_kept {code : UInt8} {payload : Bytes} (h : c.cacheResponse env code payload = .ok c₁) :
    Kept (Effect.Side t) c c₁ := by
  by_cases hcontact : code = 0x03
  · subst hcontact
    rw [cacheResponse_contact h]
    split
    · exact .of_if fun _ => .of_eq rfl
    · exact .refl
  · by_cases hchannel : code = 0x12
    · subst hchannel
      rw [cacheResponse_channel h]
      split
      · exact .of_if fun _ => .of_eq rfl
      · exact .refl
    · exact (cacheResponse_still h hcontact hchannel).toKept

/-! ### Moves -/

/-- A request that is put in front of the queue. -/
def pushFront (c : Core) (clientId : Option ClientId) (payload : Command) : Core :=
  let (q, c) := c.hand clientId payload
  { c with pendingQueue := q :: c.pendingQueue }

/-- The branch of `dispatchToRadio` that sends. -/
def startWith (c : Core) (env : Env) (q : Queued) : Core :=
  let c := (c.emit (.radio q)).invalidate env q.payload
  { c with inFlight := some (c.inFlightOf env q) }

/-- The queue without its first entry. -/
def popped (c : Core) (rest : List Queued) : Core := { c with pendingQueue := rest }

/-- The id was given out to a client. -/
def Known (c : Core) (clientId : Option ClientId) : Prop := ∀ cid, clientId = some cid → cid < c.clients.nextId

theorem known_none : c.Known none := nofun

theorem Kept.known {clientId : Option ClientId} (h : Kept p c c₁) (hknown : c.Known clientId) : c₁.Known clientId :=
  fun cid hcid => Nat.lt_of_lt_of_le (hknown cid hcid) h.clients.later.nextId

/-- A step of the queue; none touches a request in flight. Where `orderly` holds, no request overtakes the
    queue. -/
inductive Move (orderly : Prop) (env : Env) (t : Option Ticket) : Core → Core → Prop
  | still {c c' : Core} (h : Still (Effect.Side t) c c') : Move orderly env t c c'
  | relay {c c' : Core} (h : Still Effect.Unasked c c') (hnone : t = none) : Move orderly env t c c'
  | submit {c : Core} (clientId : Option ClientId) (payload : Command) (hclient : c.Known clientId) :
      Move orderly env t c (c.pushBack clientId payload)
  | jump {c : Core} (clientId : Option ClientId) (payload : Command) (hclient : c.Known clientId)
      (hfree : c.inFlight = none) (hqueue : orderly → c.pendingQueue = []) :
      Move orderly env t c (c.pushFront clientId payload)
  | start {c : Core} {q : Queued} {rest : List Queued} (hqueue : c.pendingQueue = q :: rest)
      (hfree : c.inFlight = none) (hsend : c.canSend env = true) :
      Move orderly env t c ((c.popped rest).startWith env q)
  | refuse {c : Core} {q : Queued} {rest : List Queued} (hqueue : c.pendingQueue = q :: rest)
      (hsend : c.canSend env = false) :
      Move orderly env t c (((c.popped rest).failTo q).emit (.ended q .sendFailed))
  | drop {c : Core} {q : Queued} {rest : List Queued} {cid : ClientId} (hqueue : c.pendingQueue = q :: rest)
      (hclient : q.clientId = some cid) (hgone : cid ∉ c.clients.channels) :
      Move orderly env t c ((c.popped rest).emit (.ended q .clientGone))

abbrev Moves (orderly : Prop) (env : Env) (t : Option Ticket) := Relation.ReflTransGen (Move orderly env t)

theorem Moves.mono {orderly orderly' : Prop} {env : Env} (h : Moves orderly env t c c₁) (ho : orderly' → orderly) :
    Moves orderly' env t c c₁ := by
  refine Relation.ReflTransGen.mono (fun a b hm => ?_) _ _ h
  cases hm with
  | still h => exact .still h
  | relay h hnone => exact .relay h hnone
  | submit _ _ hclient => exact .submit _ _ hclient
  | jump _ _ hclient hfree hqueue => exact .jump _ _ hclient hfree (hqueue ∘ ho)
  | start hqueue hfree hsend => exact .start hqueue hfree hsend
  | refuse hqueue hsend => exact .refuse hqueue hsend
  | drop hqueue hclient hgone => exact .drop hqueue hclient hgone

variable {orderly : Prop} {clientId : Option ClientId} {payload : Command} {q : Queued} {rest : List Queued}

theorem Still.moves (h : Still (Effect.Side t) c c₁) : Moves orderly env t c c₁ := .single (.still h)

theorem popped_self (h : c.pendingQueue = rest) : c.popped rest = c := h ▸ rfl

/-- The error frame for a request. -/
def IsErrorOf (q : Queued) (e : Effect) : Prop :=
  ∃ cid who version frame, q.clientId = some cid ∧ e = .client cid who version frame (.error q.ticket)

theorem failTo_still : Still (IsErrorOf q) c (c.failTo q) := by
  unfold failTo
  split
  · rename_i cid hcid
    exact sendToClient_still fun who version frame => ⟨cid, who, version, frame, hcid, rfl⟩
  · exact .refl

theorem invalidate_kept : Kept p c (c.invalidate env payload) := by
  unfold invalidate
  split
  · split
    · exact .of_if fun _ => .of_eq rfl
    · exact .refl
  · split
    · exact .of_if fun _ => .of_eq rfl
    · exact .refl
  all_goals exact .of_eq rfl

theorem dispatchToRadio_eq : c.dispatchToRadio env q =
    if c.canSend env then c.startWith env q else (c.failTo q).emit (.ended q .sendFailed) := rfl

/-- Nothing of what locks the clients or sends to one reads the queue. -/
theorem isEligible_still : Still p c (c.isEligible q).2 := by
  unfold isEligible
  split
  · exact lockClients_still
  · exact .refl

theorem not_connected_of_not_eligible (h : (c.isEligible q).1 = false) :
    ∃ cid, q.clientId = some cid ∧ cid ∉ (c.isEligible q).2.clients.channels := by
  unfold isEligible at h ⊢
  split at h
  · rename_i cid hcid
    exact ⟨cid, hcid, by simpa [hcid, clientIsAlive] using h⟩
  · cases h

theorem popped_isEligible : (c.popped rest).isEligible q = ((c.isEligible q).1, (c.isEligible q).2.popped rest) := by
  unfold isEligible
  split <;> rfl

theorem dispatch_failed_free (hfree : c.inFlight = none) (hsend : c.canSend env = false) :
    (c.dispatchToRadio env q).inFlight = none ∧ (c.dispatchToRadio env q).pendingQueue = c.pendingQueue := by
  rw [dispatchToRadio_eq, hsend]
  exact ⟨(failTo_still (q := q)).slot.trans hfree, (failTo_still (q := q)).queue⟩

theorem advanceFrom_moves {qs : List Queued} (hfree : c.inFlight = none) (hqueue : c.pendingQueue = qs) :
    Moves orderly env t c (c.advanceFrom env qs) := by
  induction qs generalizing c with
  | nil => exact popped_self hqueue ▸ .refl
  | cons q rest ih =>
    have hlock := isEligible_still (p := Effect.Side t) (c := c) (q := q)
    have hqueue' := hlock.queue.trans hqueue
    have hfree' := hlock.slot.trans hfree
    simp only [advanceFrom, show { c with pendingQueue := rest } = c.popped rest from rfl, popped_isEligible]
    refine .trans (.single (.still hlock)) ?_
    cases halive : (c.isEligible q).1 with
    | false =>
      obtain ⟨cid, hclient, hgone⟩ := not_connected_of_not_eligible halive
      exact .head (.drop hqueue' hclient hgone) (ih hfree' rfl)
    | true =>
      cases hsend : (c.isEligible q).2.canSend env with
      | true =>
        have hsend' : ((c.isEligible q).2.popped rest).canSend env = true := hsend
        simp only [dispatchToRadio_eq, hsend', if_true]
        exact .single (.start hqueue' hfree' hsend)
      | false =>
        have hsend' : ((c.isEligible q).2.popped rest).canSend env = false := hsend
        obtain ⟨hslot, hrest⟩ := dispatch_failed_free (q := q) (c := (c.isEligible q).2.popped rest) hfree' hsend'
        simp only [hslot, Option.isSome_none, Bool.not_true, Bool.false_eq_true, if_false]
        refine .trans (.single ?_) (ih hslot hrest)
        rw [dispatchToRadio_eq, hsend']
        exact .refuse hqueue' hsend

theorem advanceQueue_moves (hfree : c.inFlight = none) : Moves orderly env t c (c.advanceQueue env) :=
  advanceFrom_moves hfree rfl

/-- The queue stops at an entry that went out, or at its end. -/
theorem advanceFrom_idle {qs : List Queued} (hfree : c.inFlight = none) : (c.advanceFrom env qs).Idle := by
  induction qs generalizing c with
  | nil => exact fun _ => rfl
  | cons q rest ih =>
    have hfree' : ((c.popped rest).isEligible q).2.inFlight = none :=
      (isEligible_still (p := fun _ => True)).slot.trans hfree
    simp only [advanceFrom, show { c with pendingQueue := rest } = c.popped rest from rfl]
    cases ((c.popped rest).isEligible q).1 with
    | false => exact ih hfree'
    | true =>
      simp only [Bool.not_true, Bool.false_eq_true, if_false]
      split
      · rename_i hsome
        exact fun hnone => by rw [hnone] at hsome; cases hsome
      · rename_i hnone
        exact ih (by simpa using hnone)

theorem advanceQueue_idle (hfree : c.inFlight = none) : (c.advanceQueue env).Idle := advanceFrom_idle hfree

theorem enqueueOrDispatch_moves (hclient : c.Known clientId) :
    Moves c.Idle env t c (c.enqueueOrDispatch env clientId payload) := by
  unfold enqueueOrDispatch
  cases hslot : c.inFlight with
  | none =>
    let q : Queued := ⟨clientId, payload, c.nextTicket⟩
    have hpop : (c.pushFront clientId payload).popped c.pendingQueue = (c.hand clientId payload).2 := rfl
    refine .head (.jump clientId payload hclient hslot fun h => h hslot) ?_
    simp only [Option.isNone_none, if_true]
    cases hsend : c.canSend env with
    | true =>
      have hsend' : (c.hand clientId payload).2.canSend env = true := hsend
      rw [dispatchToRadio_eq, hsend', ← hpop]
      exact .single (.start rfl hslot hsend)
    | false =>
      have hsend' : (c.hand clientId payload).2.canSend env = false := hsend
      rw [dispatchToRadio_eq, hsend', ← hpop]
      exact .single (.refuse rfl hsend)
  | some f => exact .single (.submit clientId payload hclient)

theorem Kept.idle (h : Kept p c c₁) (hidle : c.Idle) : c₁.Idle := fun hslot =>
  h.queue.trans (hidle (h.slot.symm.trans hslot))

theorem idle_of_some {f : InFlight} (h : c.inFlight = some f) : c.Idle := fun hnone => by rw [hnone] at h; cases h

theorem enqueueOrDispatch_idle (h : c.Idle) : (c.enqueueOrDispatch env clientId payload).Idle := by
  unfold enqueueOrDispatch
  cases hslot : c.inFlight with
  | none =>
    simp only [Option.isNone_none, if_true, dispatchToRadio_eq]
    split
    · exact nofun
    · exact fun _ => (failTo_still (q := (c.hand clientId payload).1)).queue.trans (h hslot)
  | some f => exact idle_of_some (f := f) hslot

/-! ### The sync -/

/-- What the sync asks of the radio. -/
def IsSync (q : Queued) : Prop := q.clientId = none ∧ (q.payload.code = 0x04 ∨ q.payload.code = 0x1F)

theorem invalidate_of_sync (h : IsSync q) : c.invalidate env q.payload = c := by
  rcases h.2 with hcode | hcode <;> simp [invalidate, hcode]

theorem failTo_of_internal (h : q.clientId = none) : c.failTo q = c := by simp [failTo, h]

theorem isEligible_of_internal (h : q.clientId = none) : c.isEligible q = (true, c) := by simp [isEligible, h]

theorem advanceFromSync_moves {qs : List Queued} (hsync : ∀ q ∈ qs, IsSync q) (hfree : c.inFlight = none)
    (hqueue : c.pendingQueue = qs) : Moves orderly env t c (c.advanceFromSync env qs) := by
  cases qs with
  | nil => exact popped_self hqueue ▸ .refl
  | cons q rest =>
    have hq := hsync q List.mem_cons_self
    simp only [advanceFromSync, show { c with pendingQueue := rest } = c.popped rest from rfl,
      isEligible_of_internal hq.1, failTo_of_internal hq.1, Bool.not_true, Bool.false_eq_true, if_false]
    have hrefuse (hsend : c.canSend env = false) :
        Moves orderly env t c ((c.popped rest).emit (.ended q .sendFailed)) := by
      have hmove : Move orderly env t c (((c.popped rest).failTo q).emit (.ended q .sendFailed)) :=
        .refuse hqueue hsend
      rw [failTo_of_internal hq.1] at hmove
      exact .single hmove
    have hlink : (c.popped rest).radioSendTx = c.radioSendTx := rfl
    cases hsend : c.radioSendTx with
    | false =>
      simp only [hlink, hsend, Bool.not_false, if_true]
      exact hrefuse (by simp [canSend, hsend])
    | true =>
      cases hopen : env.writerOpen with
      | false =>
        simp only [hlink, hsend, Bool.not_true, Bool.not_false, Bool.false_eq_true, if_false, if_true]
        exact hrefuse (by simp [canSend, hopen])
      | true =>
        simp only [hlink, hsend, Bool.not_true, Bool.false_eq_true, if_false]
        have hmove : Move orderly env t c ((c.popped rest).startWith env q) :=
          .start hqueue hfree (by simp [canSend, hsend, hopen])
        simp only [startWith, invalidate_of_sync hq] at hmove
        exact .single hmove

/-- The queue of the sync. -/
def syncQueued (c : Core) : Core :=
  (List.range c.maxChannels.toNat).foldl (fun c idx => c.pushBack none (getChannel (UInt8.ofNat idx)))
    (c.pushBack none getContacts)

theorem syncFromRadio_eq : c.syncFromRadio env =
    if c.syncQueued.inFlight.isNone then c.syncQueued.advanceQueueSync env else c.syncQueued := rfl

theorem pushBacks_moves {payloads : List Command} (hsync : ∀ q ∈ c.pendingQueue, IsSync q)
    (hpay : ∀ p ∈ payloads, p.code = 0x04 ∨ p.code = 0x1F) :
    let c' := payloads.foldl (fun c payload => c.pushBack none payload) c
    Moves orderly env t c c' ∧ c'.inFlight = c.inFlight ∧ c'.radioSendTx = c.radioSendTx ∧
      ∀ q ∈ c'.pendingQueue, IsSync q := by
  induction payloads generalizing c with
  | nil => exact ⟨.refl, rfl, rfl, hsync⟩
  | cons payload payloads ih =>
    have hstep : ∀ q ∈ (c.pushBack none payload).pendingQueue, IsSync q := fun q hq => by
      rcases List.mem_append.mp hq with hq | hq
      · exact hsync q hq
      · exact List.mem_singleton.mp hq ▸ ⟨rfl, hpay payload List.mem_cons_self⟩
    obtain ⟨hmoves, hslot, hlink, hall⟩ := ih hstep fun p hp => hpay p (List.mem_cons_of_mem _ hp)
    exact ⟨.head (.submit none payload known_none) hmoves, hslot, hlink, hall⟩

theorem syncQueued_moves (orderly : Prop) (env : Env) (t : Option Ticket) (hqueue : c.pendingQueue = []) :
    Moves orderly env t c c.syncQueued ∧
    c.syncQueued.inFlight = c.inFlight ∧ c.syncQueued.radioSendTx = c.radioSendTx ∧
    ∀ q ∈ c.syncQueued.pendingQueue, IsSync q := by
  have hall : c.syncQueued = (getContacts :: (List.range c.maxChannels.toNat).map fun idx =>
      getChannel (UInt8.ofNat idx)).foldl (fun c payload => c.pushBack none payload) c := by
    rw [List.foldl_cons, List.foldl_map]
    rfl
  rw [hall]
  refine pushBacks_moves (by simp [hqueue]) fun p hp => ?_
  rcases List.mem_cons.mp hp with rfl | hp
  · exact Or.inl rfl
  · obtain ⟨idx, -, rfl⟩ := List.mem_map.mp hp
    exact Or.inr rfl

theorem syncFromRadio_moves (hfree : c.inFlight = none) (hqueue : c.pendingQueue = []) :
    Moves orderly env t c (c.syncFromRadio env) := by
  obtain ⟨hmoves, hslot, -, hsync⟩ := syncQueued_moves orderly env t hqueue
  rw [syncFromRadio_eq, hslot, hfree]
  exact hmoves.trans (advanceFromSync_moves hsync (hslot.trans hfree) rfl)

/-- The sync leaves the queue moving when its first entry can be sent. -/
theorem syncFromRadio_idle (hfree : c.inFlight = none) (hqueue : c.pendingQueue = [])
    (hsend : c.canSend env = true) : (c.syncFromRadio env).Idle := by
  obtain ⟨-, hslot, hlink, hsync⟩ := syncQueued_moves True env none hqueue
  rw [syncFromRadio_eq, hslot, hfree]
  simp only [Option.isNone_none, if_true, advanceQueueSync]
  cases hq : c.syncQueued.pendingQueue with
  | nil => exact fun _ => rfl
  | cons q rest =>
    have hint := (hsync q (hq ▸ List.mem_cons_self)).1
    have hboth : c.radioSendTx = true ∧ env.writerOpen = true := by simpa [canSend] using hsend
    have hlink' : (c.syncQueued.popped rest).radioSendTx = true := hlink.trans hboth.1
    simp only [advanceFromSync, show { c.syncQueued with pendingQueue := rest } = c.syncQueued.popped rest from rfl,
      isEligible_of_internal hint, hlink', hboth.2, Bool.not_true, Bool.false_eq_true, if_false]
    exact nofun

/-! ### Acceptance -/

theorem afterAccepted_moves {done : InFlight} : Moves orderly env t c (c.afterAccepted env done) := by
  unfold afterAccepted
  dsimp only
  split
  · split
    · exact Still.moves (.of_if fun _ => .of_eq rfl rfl rfl)
    · exact .refl
  · split
    · exact .single (.submit _ _ known_none)
    · exact .refl
  · split
    · exact .single (.submit _ _ known_none)
    · exact .refl
  · exact .single (.submit _ _ known_none)
  · exact Still.moves (.of_eq rfl rfl rfl)
  · exact .refl

theorem echoAccepted_still {done : InFlight} : Still (Effect.Side (some done.ticket)) c (c.echoAccepted env done) := by
  unfold echoAccepted
  split
  · exact .refl
  · split
    · split
      · unfold synthesizeContactEcho
        split
        · exact .refl
        · exact synthesizeEcho_still
      · exact .refl
    · split
      · unfold synthesizeChannelEcho
        split
        · exact .refl
        · exact synthesizeEcho_still
      · exact .refl
    · exact .refl

theorem afterAccepted_slot {done : InFlight} : (c.afterAccepted env done).inFlight = c.inFlight := by
  unfold afterAccepted
  dsimp only
  split
  · split
    · split <;> rfl
    · rfl
  · split <;> rfl
  · split <;> rfl
  all_goals rfl

/-- The first effects of an acceptance: it is recorded, and a client that just identified itself is told
    about what it missed. -/
def acceptance (c : Core) (done : InFlight) : Core :=
  let c := c.emit (.accepted done.request)
  match done.clientId with
  | some cid => if done.cmdCode = 0x01 then c.notifyMissed cid else c
  | none => c

theorem onCommandAccepted_eq {done : InFlight} :
    c.onCommandAccepted env done = ((c.acceptance done).afterAccepted env done).echoAccepted env done := rfl

theorem acceptance_still {done : InFlight} : Still (Effect.Side (some done.ticket)) c (c.acceptance done) := by
  refine (emit_still (e := .accepted done.request) ⟨rfl, rfl, rfl, Or.inr rfl⟩).trans ?_
  unfold acceptance
  dsimp only
  split
  · exact .of_if fun _ => notifyMissed_still
  · exact .refl

theorem onCommandAccepted_slot {done : InFlight} : (c.onCommandAccepted env done).inFlight = c.inFlight := by
  rw [onCommandAccepted_eq, echoAccepted_still.slot, afterAccepted_slot, acceptance_still.slot]

theorem onCommandAccepted_moves {done : InFlight} :
    Moves orderly env (some done.ticket) c (c.onCommandAccepted env done) := by
  rw [onCommandAccepted_eq]
  exact acceptance_still.moves.trans (afterAccepted_moves.trans echoAccepted_still.moves)

theorem Moves.slot (h : Moves orderly env t c c₁) (hslot : c.inFlight ≠ none) : c₁.inFlight = c.inFlight := by
  induction h with
  | refl => rfl
  | tail _ hm ih =>
    cases hm with
    | still h => exact h.slot.trans ih
    | relay h => exact h.slot.trans ih
    | submit => exact ih
    | jump _ _ _ hfree => exact absurd (ih.symm.trans hfree) hslot
    | start _ hfree => exact absurd (ih.symm.trans hfree) hslot
    | refuse => exact failTo_still.slot.trans ih
    | drop => exact ih

/-- No move opens or closes the link, or brings a client back. -/
theorem Move.link_onward (h : Move orderly env t c c₁) :
    c₁.radioSendTx = c.radioSendTx ∧ c.clients.Onward c₁.clients := by
  cases h with
  | still h => exact ⟨h.link, h.clients⟩
  | relay h => exact ⟨h.link, h.clients⟩
  | submit | jump | drop => exact ⟨rfl, .refl⟩
  | @start q rest =>
    have hkept : Kept (fun _ => False) ((c.popped rest).emit (.radio q))
        (((c.popped rest).emit (.radio q)).invalidate env q.payload) := invalidate_kept
    exact ⟨hkept.link, hkept.clients⟩
  | @refuse q rest =>
    have hfail : Still (IsErrorOf q) (c.popped rest) ((c.popped rest).failTo q) := failTo_still
    exact ⟨hfail.link, hfail.clients⟩

/-- What a move emits, where requests can be sent or not. -/
inductive EmittedByMove (sends : Bool) (t : Option Ticket) : Effect → Prop
  | side {e : Effect} (h : e.Side t) : EmittedByMove sends t e
  | relay {e : Effect} (h : e.Unasked) (hnone : t = none) : EmittedByMove sends t e
  | handed (q : Queued) : EmittedByMove sends t (.handed q)
  | radio (q : Queued) : EmittedByMove sends t (.radio q)
  | error {q : Queued} {e : Effect} (h : IsErrorOf q e) (hsends : sends = false) : EmittedByMove sends t e
  | sendFailed (q : Queued) (hsends : sends = false) : EmittedByMove sends t (.ended q .sendFailed)
  | clientGone (q : Queued) : EmittedByMove sends t (.ended q .clientGone)

theorem Move.out (h : Move orderly env t c c₁) :
    ∃ es, c₁.out = c.out ++ es ∧ ∀ e ∈ es, EmittedByMove (c.canSend env) t e := by
  cases h with
  | still h =>
    obtain ⟨es, hout, hes⟩ := h.out
    exact ⟨es, hout, fun e he => .side (hes e he)⟩
  | relay h hnone =>
    obtain ⟨es, hout, hes⟩ := h.out
    exact ⟨es, hout, fun e he => .relay (hes e he) hnone⟩
  | submit clientId payload =>
    exact ⟨[.handed ⟨clientId, payload, c.nextTicket⟩], rfl, by simpa using .handed _⟩
  | jump clientId payload =>
    exact ⟨[.handed ⟨clientId, payload, c.nextTicket⟩], rfl, by simpa using .handed _⟩
  | @start q rest =>
    have hkept : Kept (fun _ => False) ((c.popped rest).emit (.radio q))
        (((c.popped rest).emit (.radio q)).invalidate env q.payload) := invalidate_kept
    exact ⟨[.radio q], hkept.silent, by simpa using .radio q⟩
  | @refuse q rest _ hsend =>
    obtain ⟨es, hout, hes⟩ := (failTo_still (c := c.popped rest) (q := q)).out
    refine ⟨es ++ [.ended q .sendFailed], by rw [← List.append_assoc]; exact congrArg (· ++ _) hout, fun e he => ?_⟩
    rcases List.mem_append.mp he with he | he
    · exact .error (hes e he) hsend
    · exact List.mem_singleton.mp he ▸ .sendFailed q hsend
  | @drop q => exact ⟨[.ended q .clientGone], rfl, by simpa using .clientGone q⟩

theorem Moves.link (h : Moves orderly env t c c₁) : c₁.radioSendTx = c.radioSendTx := by
  induction h with
  | refl => rfl
  | tail _ hm ih => exact hm.link_onward.1.trans ih

theorem Moves.onward (h : Moves orderly env t c c₁) : c.clients.Onward c₁.clients := by
  induction h with
  | refl => exact .refl
  | tail _ hm ih => exact ih.trans hm.link_onward.2

theorem Moves.out (h : Moves orderly env t c c₁) :
    ∃ es, c₁.out = c.out ++ es ∧ ∀ e ∈ es, EmittedByMove (c.canSend env) t e := by
  induction h with
  | refl => exact ⟨[], (List.append_nil _).symm, List.forall_mem_nil _⟩
  | @tail c₂ c₃ hms hm ih =>
    obtain ⟨es₁, hout₁, hes₁⟩ := ih
    obtain ⟨es₂, hout₂, hes₂⟩ := hm.out
    have hsends : c₂.canSend env = c.canSend env := by simp only [canSend, Moves.link hms]
    refine ⟨es₁ ++ es₂, by rw [hout₂, hout₁, List.append_assoc], fun e he => ?_⟩
    exact (List.mem_append.mp he).elim (hes₁ e) fun he => hsends ▸ hes₂ e he

/-! ### The request in flight -/

variable {f : InFlight} {code : UInt8} {frame : Bytes}

/-- A frame that belongs to the request in flight and does not complete it. -/
def replyPart (c : Core) (env : Env) (f : InFlight) (code : UInt8) (payload : Bytes) : Core :=
  { c.deliverReply env f code payload with inFlight := some { f with lastActivity := env.now } }

/-- The frame that completes the request in flight. -/
def finish (c : Core) (env : Env) (f : InFlight) (code : UInt8) (payload : Bytes) : Core :=
  { c.deliverReply env f code payload with inFlight := none }.emit (.ended f.request (.replied code))

/-- The request in flight was silent for too long. -/
def expire (c : Core) (f : InFlight) : Core :=
  ({ c with inFlight := none }.failTo f.request).emit (.ended f.request .timedOut)

/-- The link went down under the request in flight. -/
def loseInFlight (c : Core) (f : InFlight) : Core :=
  ({ c with inFlight := none }.failTo f.request).emit (.ended f.request .linkLost)

theorem recordAck_still {cid : ClientId} :
    Still (Effect.OfReply f) c (c.recordAck env cid f.ticket code frame) := by
  unfold recordAck
  dsimp only
  split
  · exact Still.emit (.of_eq rfl rfl rfl) ⟨rfl, rfl⟩
  · exact .refl

/-- The part of `deliverReply` that concerns the client of the request. -/
def replyToClient (c : Core) (env : Env) (f : InFlight) (code : UInt8) (payload : Bytes) : Core :=
  match f.clientId with
  | some cid => (c.recordAck env cid f.ticket code payload).sendToClient cid payload (.reply f.ticket)
  | none => c

theorem deliverReply_eq : c.deliverReply env f code frame =
    if f.cmdCode = 0x0A ∧ (code = 0x07 ∨ code = 0x08 ∨ code = 0x10 ∨ code = 0x11) then
      (c.replyToClient env f code frame).broadcastToOthers f.clientId frame (.fanout f.ticket)
    else c.replyToClient env f code frame := rfl

theorem replyToClient_still : Still (Effect.OfReply f) c (c.replyToClient env f code frame) := by
  unfold replyToClient
  split
  · exact recordAck_still.trans (sendToClient_still fun _ _ _ => ⟨rfl, rfl⟩)
  · exact .refl

theorem deliverReply_still : Still (Effect.OfReply f) c (c.deliverReply env f code frame) := by
  rw [deliverReply_eq]
  split
  · exact replyToClient_still.trans (broadcastToOthers_still fun _ _ _ _ => ⟨rfl, rfl⟩)
  · exact replyToClient_still

/-- What a frame of the radio does once it is logged and cached. -/
inductive Routed (env : Env) (code : UInt8) (frame : Bytes) (c c' : Core) : Prop
  | finish (f : InFlight) (hslot : c.inFlight = some f) (hcode : f.awaiting.classify code = (true, true))
      (h : Moves True env (some f.ticket) (c.finish env f code frame) c')
  | part (f : InFlight) (hslot : c.inFlight = some f) (hcode : f.awaiting.classify code = (true, false))
      (h : c' = c.replyPart env f code frame)
  | other (hcode : ∀ f, c.inFlight = some f → (f.awaiting.classify code).1 = false)
      (h : Moves True env none c c')

theorem complete_moves : Moves orderly env (some f.ticket) (c.finish env f code frame)
    ((c.deliverReply env f code frame).complete env f code) := by
  have hfree : (c.finish env f code frame).inFlight = none := rfl
  unfold complete
  dsimp only
  split
  · have hmoves : Moves orderly env (some f.ticket) (c.finish env f code frame)
        ((c.finish env f code frame).onCommandAccepted env f) := onCommandAccepted_moves
    exact hmoves.trans (advanceQueue_moves (onCommandAccepted_slot.trans hfree))
  · exact advanceQueue_moves hfree

theorem complete_idle : (c.complete env f code).Idle := by
  unfold complete
  dsimp only
  split
  · exact advanceQueue_idle onCommandAccepted_slot
  · exact advanceQueue_idle rfl

theorem tryRouteAck_still : Still Effect.Unasked c (c.tryRouteAck code frame).2 := by
  unfold tryRouteAck
  split
  · dsimp only
    split
    · rename_i cid _ _
      have herase : Still Effect.Unasked c { c with pendingAcks := c.pendingAcks.erase (slice frame 1 5 (by omega)) } :=
        .of_eq rfl rfl rfl
      exact herase.trans (sendToClient_still fun _ _ _ => ⟨rfl, rfl, rfl⟩)
    · exact .refl
  · exact .refl

theorem refreshOnPush_moves : Moves orderly env t c (c.refreshOnPush env code frame) := by
  unfold refreshOnPush
  split
  · dsimp only
    split
    · rename_i hnone
      exact .head (.submit _ _ known_none) (advanceQueue_moves (Option.isNone_iff_eq_none.mp hnone))
    · exact .single (.submit _ _ known_none)
  · exact .refl

theorem refreshOnPush_idle (h : c.Idle) : (c.refreshOnPush env code frame).Idle := by
  unfold refreshOnPush
  split
  · dsimp only
    split
    · rename_i hnone
      exact advanceQueue_idle (by simpa using hnone)
    · rename_i hsome
      exact fun hnone => absurd hnone (by simpa using hsome)
  · exact h

/-- `routeFrame` for a frame that does not belong to the request in flight. -/
def routeUnmatched (c : Core) (env : Env) (code : UInt8) (payload : Bytes) : Core :=
  let (routed, c) := c.tryRouteAck code payload
  if routed then c
  else if isPushEvent code then (c.refreshOnPush env code payload).emit (.broadcast payload)
  else c

theorem routeFrame_eq : c.routeFrame env code frame =
    match c.inFlight with
    | none => c.routeUnmatched env code frame
    | some f =>
      match f.awaiting.classify code with
      | (true, true) => (c.deliverReply env f code frame).complete env f code
      | (true, false) => c.replyPart env f code frame
      | (false, _) => c.routeUnmatched env code frame := by
  unfold routeFrame tryRouteToInFlight
  cases c.inFlight with
  | none => rfl
  | some f => rcases hcode : f.awaiting.classify code with ⟨_ | _, _ | _⟩ <;> simp only [hcode] <;> rfl

theorem routeUnmatched_moves : Moves orderly env none c (c.routeUnmatched env code frame) := by
  have hack : Moves orderly env none c (c.tryRouteAck code frame).2 := .single (.relay tryRouteAck_still rfl)
  unfold routeUnmatched
  dsimp only
  split
  · exact hack
  · split
    · exact (hack.trans refreshOnPush_moves).tail (.relay (emit_still ⟨rfl, rfl, rfl⟩) rfl)
    · exact hack

theorem routeUnmatched_idle (h : c.Idle) : (c.routeUnmatched env code frame).Idle := by
  have hack : (c.tryRouteAck code frame).2.Idle := tryRouteAck_still.idle h
  unfold routeUnmatched
  dsimp only
  split
  · exact hack
  · split
    · exact refreshOnPush_idle hack
    · exact hack

theorem routeFrame_routed : Routed env code frame c (c.routeFrame env code frame) := by
  rw [routeFrame_eq]
  cases hslot : c.inFlight with
  | none => exact .other (by simp [hslot]) routeUnmatched_moves
  | some f =>
    rcases hcode : f.awaiting.classify code with ⟨_ | _, _ | _⟩ <;> simp only [hcode]
    · exact .other (by simp [hslot, hcode]) routeUnmatched_moves
    · exact .other (by simp [hslot, hcode]) routeUnmatched_moves
    · exact .part f hslot hcode rfl
    · exact .finish f hslot hcode complete_moves

theorem routeFrame_idle (h : c.Idle) : (c.routeFrame env code frame).Idle := by
  rw [routeFrame_eq]
  split
  · exact routeUnmatched_idle h
  · split
    · exact complete_idle
    · exact idle_of_some rfl
    · exact routeUnmatched_idle h

/-! ### The handlers -/

/-- What `handleRadioRx` does to the queue: a frame is cached, then routed. -/
theorem handleRadioRx_routed (h : c.handleRadioRx env frame = .ok c₁) :
    frame = [] ∧ c₁ = c ∨ ∃ code rest c', frame = code :: rest ∧ c.cacheResponse env code frame = .ok c' ∧
      Routed env code frame (c'.recordRaw env code frame) c₁ := by
  unfold handleRadioRx at h
  split at h
  · cases h
    exact Or.inl ⟨rfl, rfl⟩
  · obtain ⟨-, -, h⟩ := Except.of_bind_eq_ok h
    obtain ⟨c', hc', h⟩ := Except.of_bind_eq_ok h
    cases h
    exact Or.inr ⟨_, _, c', rfl, hc', routeFrame_routed⟩

theorem recordRaw_still : Still p c (c.recordRaw env code frame) := .of_if fun _ => .of_eq rfl rfl rfl

theorem handleRadioRx_idle (h : c.handleRadioRx env frame = .ok c₁) (hidle : c.Idle) : c₁.Idle := by
  unfold handleRadioRx at h
  split at h
  · cases h
    exact hidle
  · obtain ⟨-, -, h⟩ := Except.of_bind_eq_ok h
    obtain ⟨c', hc', h⟩ := Except.of_bind_eq_ok h
    cases h
    have hkept : Kept (Effect.Side none) c c' := cacheResponse_kept hc'
    exact routeFrame_idle ((recordRaw_still (p := fun _ => True)).idle (hkept.idle hidle))

/-- Moves that keep the queue orderly and moving if it was. -/
structure Works (env : Env) (c c' : Core) : Prop where
  moves : Moves c.Idle env none c c'
  idle : c.Idle → c'.Idle

theorem Still.works (h : Still (Effect.Side none) c c₁) : Works env c c₁ := ⟨h.moves, h.idle⟩

theorem Works.trans (h₁ : Works env c c₁) (h₂ : Works env c₁ c₂) : Works env c c₂ :=
  ⟨h₁.moves.trans (h₂.moves.mono h₁.idle), h₂.idle ∘ h₁.idle⟩

theorem enqueueOrDispatch_works (hclient : c.Known clientId) : Works env c (c.enqueueOrDispatch env clientId payload) :=
  ⟨enqueueOrDispatch_moves hclient, enqueueOrDispatch_idle⟩

theorem recordVersion_still {cmd : ClientCommand} : Still p c (c.recordVersion code cmd) := by
  unfold recordVersion
  split
  · exact .of_if fun _ => .of_eq rfl rfl rfl
  · exact .refl

theorem serveFromRadio_works {cmd : ClientCommand} (hclient : c.Known (some cmd.clientId)) :
    Works env c (c.serveFromRadio env cmd payload) := by
  have hcache : Still (Effect.Side none) c (c.tryServeFromCache env payload.code cmd).2 := tryServeFromCache_still
  unfold serveFromRadio
  dsimp only
  split
  · split
    · exact (hcache.trans notifyMissed_still).works
    · exact hcache.works
  · exact hcache.works.trans (enqueueOrDispatch_works (hcache.known hclient))

theorem serveCommand_works {cmd : ClientCommand} (hclient : c.Known (some cmd.clientId)) :
    Works env c (c.serveCommand env cmd payload) := by
  have hregister : Still (Effect.Side none) c (if payload.code = 0x01 then c.registerSession env cmd else c) :=
    .of_if fun _ => registerSession_still
  have hserve {c : Core} (hclient : c.Known (some cmd.clientId)) : Works env c (if payload.code = 0x0A then
      if (c.replayNextMissed env cmd.clientId).1 then (c.replayNextMissed env cmd.clientId).2
      else (c.replayNextMissed env cmd.clientId).2.serveFromRadio env cmd payload
      else c.serveFromRadio env cmd payload) := by
    have hreplay : Still (Effect.Side none) c (c.replayNextMissed env cmd.clientId).2 := replayNextMissed_still
    split
    · split
      · exact hreplay.works
      · exact hreplay.works.trans (serveFromRadio_works (hreplay.known hclient))
    · exact serveFromRadio_works hclient
  have hbefore : Still (Effect.Side none) c
      ((if payload.code = 0x01 then c.registerSession env cmd else c).recordVersion payload.code cmd) :=
    hregister.trans recordVersion_still
  exact hbefore.works.trans (hserve (hbefore.known hclient))

theorem handleClientCommand_works {cmd : ClientCommand} (h : c.handleClientCommand env cmd = .ok c₁)
    (hvalid : c.clients.Valid) : Works env c c₁ := by
  unfold handleClientCommand at h
  split at h
  · cases h
    exact Still.refl.works
  · have hlock : Works env c c.lockClients := lockClients_still.works
    dsimp only at h
    split at h
    · cases h
      exact hlock
    · rename_i halive
      obtain ⟨-, -, h⟩ := Except.of_bind_eq_ok h
      cases h
      refine hlock.trans (serveCommand_works ?_)
      have hmem : cmd.clientId ∈ c.lockClients.clients.channels := by simpa [clientIsAlive] using halive
      intro cid hcid
      exact (Clients.lock_valid hvalid).born cid (Option.some.inj hcid ▸ hmem)

/-- A timeout fails the request in flight, then the queue goes on. -/
theorem checkInFlightTimeout_cases (c : Core) (env : Env) : c.checkInFlightTimeout env = c ∨
    ∃ f, c.inFlight = some f ∧ env.now - f.lastActivity ≥ inFlightTimeout ∧
      Moves True env none (c.expire f) (c.checkInFlightTimeout env) ∧ (c.checkInFlightTimeout env).Idle := by
  unfold checkInFlightTimeout
  split
  · exact Or.inl rfl
  · rename_i f hslot
    split
    · rename_i hlate
      have hfree : (c.expire f).inFlight = none := failTo_still.slot
      exact Or.inr ⟨f, hslot, hlate, advanceQueue_moves hfree, advanceQueue_idle hfree⟩
    · exact Or.inl rfl

theorem maintain_kept : Kept p c (c.maintain env) := .of_eq rfl

/-- `runMaintenance` up to its purge. -/
def resync (c : Core) (env : Env) : Core :=
  let fullSyncPending := c.inFlight.any (fun f => f.payload.bytes == [0x04]) ||
    c.pendingQueue.any fun q => q.payload.bytes == [0x04]
  if c.config.retention.contactsDays > 0 && !fullSyncPending then
    let c := c.pushBack none getContacts
    if c.inFlight.isNone then c.advanceQueue env else c
  else c

theorem runMaintenance_eq : c.runMaintenance env = (c.resync env).maintain env := rfl

theorem resync_works : Works env c (c.resync env) := by
  unfold resync
  dsimp only
  split
  · split
    · rename_i hnone
      have hfree := Option.isNone_iff_eq_none.mp hnone
      exact ⟨.head (.submit _ _ known_none) (advanceQueue_moves hfree), fun _ => advanceQueue_idle hfree⟩
    · rename_i hsome
      exact ⟨.single (.submit _ _ known_none), fun _ hnone => absurd hnone (by simpa using hsome)⟩
  · exact Still.refl.works

/-! ### The link -/

/-- Everything that waits is failed, each client in turn. -/
inductive Drain : Core → Core → Prop
  | done {c : Core} (h : c.pendingQueue = []) : Drain c c
  | lost {c c' : Core} {q : Queued} {rest : List Queued} (hqueue : c.pendingQueue = q :: rest)
      (h : Drain (((c.popped rest).failTo q).emit (.ended q .drained)) c') : Drain c c'

theorem failFrom_drain {qs : List Queued} (hqueue : c.pendingQueue = qs) : Drain c (c.failFrom qs) := by
  induction qs generalizing c with
  | nil =>
    have hnil : c.failFrom [] = c := popped_self hqueue
    rw [hnil]
    exact .done hqueue
  | cons q rest ih => exact .lost hqueue (ih failTo_still.queue)

/-- The link is down, with the request in flight lost. -/
def unlinked (c : Core) : Core :=
  let c := { c with radioSendTx := false, radioUp := false }
  match c.inFlight with
  | some f => c.loseInFlight f
  | none => c

theorem failAll_drain : Drain c.unlinked c.failAll := failFrom_drain rfl

theorem waitForSelfInfo_still {recv rest : List Recv} {ok : Bool}
    (h : c.waitForSelfInfo env recv = .ok (ok, rest, c₁)) : Still (Effect.Side t) c c₁ := by
  induction recv generalizing rest with
  | nil => cases h; exact .refl
  | cons r recv ih =>
    cases r with
    | frame payload =>
      rw [waitForSelfInfo] at h
      split at h
      · obtain ⟨c₂, hc₂, h⟩ := Except.of_bind_eq_ok h
        cases h
        exact cacheResponse_still hc₂ (by decide) (by decide)
      · obtain ⟨-, -, h⟩ := Except.of_bind_eq_ok h
        exact ih h
    | closed | deadline | shutdown => cases h; exact .refl

theorem waitForDeviceInfo_still {recv rest : List Recv} {ok : Bool}
    (h : c.waitForDeviceInfo env recv = .ok (ok, rest, c₁)) : Still (Effect.Side t) c c₁ := by
  induction recv generalizing rest with
  | nil => cases h; exact .refl
  | cons r recv ih =>
    cases r with
    | frame payload =>
      rw [waitForDeviceInfo] at h
      split at h
      · obtain ⟨c₂, hc₂, h⟩ := Except.of_bind_eq_ok h
        cases h
        exact cacheResponse_still hc₂ (by decide) (by decide)
      · split at h
        · cases h; exact .refl
        · obtain ⟨-, -, h⟩ := Except.of_bind_eq_ok h
          exact ih h
    | closed | deadline | shutdown => cases h; exact .refl

theorem initializeRadio_still {a : Attempt} {ok : Bool} (h : c.initializeRadio a = .ok (ok, c₁)) :
    Still (Effect.Side t) c c₁ := by
  unfold initializeRadio at h
  have hsend (c : Core) (payload : Command) : Still (Effect.Side t) c (c.emit (.radioInit payload)) :=
    emit_still ⟨rfl, rfl, rfl, Or.inl rfl⟩
  split at h
  · cases h; exact .refl
  · obtain ⟨⟨ok₂, rest, c₂⟩, hc₂, h⟩ := Except.of_bind_eq_ok h
    have h₂ := (hsend c buildAppstart).trans (waitForSelfInfo_still hc₂)
    dsimp only at h
    split at h
    · cases h; exact h₂
    · split at h
      · cases h; exact h₂
      · obtain ⟨⟨ok₃, rest', c₃⟩, hc₃, h⟩ := Except.of_bind_eq_ok h
        cases h
        exact (h₂.trans (hsend c₂ deviceQuery)).trans (waitForDeviceInfo_still hc₃)

/-- How a try to connect ends. -/
inductive Attempted (c : Core) (a : Attempt) : Bool → Core → Prop
  | unconnected : Attempted c a false c
  | uninitialized {c₁ : Core} (h : Still (Effect.Side none) { c with radioSendTx := true } c₁) :
      Attempted c a false { c₁ with radioSendTx := false }
  | synced {c₁ : Core} (h : Still (Effect.Side none) { c with radioSendTx := true } c₁) :
      Attempted c a true { c₁.syncFromRadio a.syncEnv with radioUp := true }

theorem attemptRadio_attempted {a : Attempt} {ok : Bool} (h : c.attemptRadio a = .ok (ok, c₁)) :
    Attempted c a ok c₁ := by
  unfold attemptRadio at h
  split at h
  · cases h; exact .unconnected
  · obtain ⟨⟨ok₂, c₂⟩, hc₂, h⟩ := Except.of_bind_eq_ok h
    have hstill := initializeRadio_still (t := none) hc₂
    dsimp only at h
    split at h
    · cases h; exact .synced hstill
    · cases h; exact .uninitialized hstill

theorem Attempted.free_of_failed {a : Attempt} (ha : Attempted c a false c₁) (hfree : c.inFlight = none)
    (hqueue : c.pendingQueue = []) : c₁.inFlight = none ∧ c₁.pendingQueue = [] := by
  cases ha with
  | unconnected => exact ⟨hfree, hqueue⟩
  | uninitialized h => exact ⟨h.slot.trans hfree, h.queue.trans hqueue⟩

theorem restoreBlobs_still (h : c.restoreBlobs env = .ok c₁) : Still (Effect.Side t) c c₁ := by
  obtain ⟨c₂, hc₂, h⟩ := Except.of_bind_eq_ok h
  obtain ⟨c₃, hc₃, h⟩ := Except.of_bind_eq_ok h
  cases h
  have h₂ : Still (Effect.Side t) c c₂ := by
    unfold restoreSelfInfo at hc₂
    split at hc₂
    · obtain ⟨c', hc', h⟩ := Except.of_bind_eq_ok hc₂
      cases h
      exact (extractRadioIdentity_still hc').trans (.of_eq rfl rfl rfl)
    · cases hc₂
      exact .refl
  have h₃ : Still (Effect.Side t) c₂ c₃ := by
    unfold restoreDeviceInfo at hc₃
    split at hc₃
    · obtain ⟨c', hc', h⟩ := Except.of_bind_eq_ok hc₃
      cases h
      exact (extractMaxChannels_still hc').trans (.of_eq rfl rfl rfl)
    · cases hc₃
      exact .refl
  refine (h₂.trans h₃).trans ?_
  unfold restoreBatteryInfo
  split
  · exact .of_eq rfl rfl rfl
  · exact .refl

end
end Core
end CoreSplitter
