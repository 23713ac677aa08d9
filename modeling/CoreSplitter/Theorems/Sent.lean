import CoreSplitter.Theorems.Writes

/-! What goes to the clients: which payload stands behind each frame, and for which version it was laid out. And
    which version the radio is asked for. -/

namespace CoreSplitter
open Bytes

/-! ### Versions -/

namespace Core

/-- Whom the core may meet, and what it may emit besides what goes to a client. -/
structure Audience where
  met : ClientId → Prop
  emits : Effect → Prop

def Audience.any : Audience := ⟨fun _ => True, fun _ => True⟩

/-- `v` is the version that each client asked for last, and the core meets no one else. -/
structure Told (v : ClientId → UInt8) (P : Audience) (c : Core) : Prop where
  connected : ∀ cid ∈ c.clients.channels, c.protocolVersion cid = v cid
  unborn : ∀ cid, c.clients.nextId ≤ cid → c.protocolVersion cid = 0 ∧ v cid = 0
  valid : c.clients.Valid
  met : ∀ cid, c.clients.Meets cid → P.met cid

section
variable {v : ClientId → UInt8} {P : Audience} {c c₁ : Core}

theorem Told.of_onward (h : Told v P c) (honward : c.clients.Onward c₁.clients)
    (hversions : c₁.protocolVersions = c.protocolVersions) : Told v P c₁ := by
  have hsame (cid : ClientId) : c₁.protocolVersion cid = c.protocolVersion cid := by
    rw [protocolVersion, protocolVersion, hversions]
  have hlater := honward.later
  refine ⟨fun cid hcid => ?_, fun cid hcid => ?_, honward.valid h.valid, fun cid hcid => h.met cid (honward.meets hcid)⟩
  · rw [hsame]
    by_cases hold : cid < c.clients.nextId
    · exact h.connected cid (hlater.old cid hcid hold)
    · obtain ⟨h₁, h₂⟩ := h.unborn cid (Nat.le_of_not_lt hold)
      rw [h₁, h₂]
  · rw [hsame]
    exact h.unborn cid (Nat.le_trans hlater.nextId hcid)

theorem Told.of_eq (h : Told v P c) (hclients : c₁.clients = c.clients)
    (hversions : c₁.protocolVersions = c.protocolVersions) : Told v P c₁ :=
  h.of_onward (hclients ▸ .refl) hversions

theorem Told.lock (h : Told v P c) : Told v P c.lockClients := h.of_onward Clients.lock_onward rfl

theorem Told.here (h : Told v P c) {cid : ClientId} (hcid : cid ∈ c.clients.channels) : P.met cid :=
  h.met cid ⟨c.clients, .refl, hcid⟩

theorem Told.dropGone (h : Told v P c) : Told v P c.dropGoneSessions := by
  have hlock : Told v P c.lockClients := h.lock
  have hversion (cid : ClientId) : c.dropGoneSessions.protocolVersion cid =
      ((c.lockClients.protocolVersions.lookup cid).filter fun _ => c.lockClients.clients.channels.contains cid).getD
      0 := by
    rw [protocolVersion, dropGoneSessions, Table.lookup_retain]
  refine ⟨fun cid hcid => ?_, fun cid hcid => ?_, hlock.valid, hlock.met⟩
  · have hmem : c.lockClients.clients.channels.contains cid = true := List.contains_iff_mem.mpr hcid
    rw [hversion, hmem, ← hlock.connected cid hcid, protocolVersion]
    cases c.lockClients.protocolVersions.lookup cid <;> rfl
  · obtain ⟨hzero, hv⟩ := hlock.unborn cid hcid
    have hgone : c.lockClients.clients.channels.contains cid = false := by
      rw [← Bool.not_eq_true, List.contains_iff_mem]
      exact fun hmem => Nat.lt_irrefl _ (Nat.lt_of_lt_of_le (hlock.valid.born cid hmem) hcid)
    rw [hversion, hgone]
    refine ⟨?_, hv⟩
    cases c.lockClients.protocolVersions.lookup cid <;> rfl

end
end Core

/-! ### Frames -/

/-- A DEVICE_QUERY for the radio asks for the proxy's version. -/
def Command.Negotiates (p : Command) : Prop := p.code = 0x16 → p.bytes = [0x16, radioProtocolVersion]

/-- A request that the core hands over, or sends as it initialises the radio, keeps the proxy's version. -/
def Effect.Negotiates : Effect → Prop
  | .handed r => r.payload.Negotiates
  | .radioInit p => p.Negotiates
  | _ => True

theorem forwardedPayload_negotiates {p : Command} : (Core.forwardedPayload p).Negotiates := by
  unfold Core.forwardedPayload
  split
  · exact fun _ => rfl
  · rename_i hcode
    exact fun h => absurd h hcode

/-- A frame for a client that the core may meet is laid out for its version, from a payload that satisfies `q`. -/
def Effect.Spoken (v : ClientId → UInt8) (P : Core.Audience) (q : ClientId → Why → Bytes → Prop) (e : Effect) : Prop :=
  match e with
  | .client cid _ version frame why => version = v cid ∧ P.met cid ∧
      ∃ payload, frame = messageFrameFor version payload ∧ q cid why payload
  | e => P.emits e

namespace Core

/-- What the core keeps and emits as it speaks to its clients. -/
structure Speaks (v : ClientId → UInt8) (P : Audience) (q : ClientId → Why → Bytes → Prop) (c c₁ : Core) : Prop where
  told : Told v P c₁
  clients : c.clients.Onward c₁.clients
  out : ∃ es, c₁.out = c.out ++ es ∧ ∀ e ∈ es, e.Spoken v P q

section
variable {v : ClientId → UInt8} {P : Audience} {q : ClientId → Why → Bytes → Prop} {c c₁ c₂ : Core} {env : Env}

theorem Speaks.refl (h : Told v P c) : Speaks v P q c c :=
  ⟨h, .refl, [], (List.append_nil _).symm, List.forall_mem_nil _⟩

theorem Speaks.trans (h₁ : Speaks v P q c c₁) (h₂ : Told v P c₁ → Speaks v P q c₁ c₂) : Speaks v P q c c₂ := by
  obtain ⟨es₁, hout₁, hes₁⟩ := h₁.out
  obtain ⟨es₂, hout₂, hes₂⟩ := (h₂ h₁.told).out
  refine ⟨(h₂ h₁.told).told, h₁.clients.trans (h₂ h₁.told).clients, es₁ ++ es₂,
    by rw [hout₂, hout₁, List.append_assoc], fun e he => ?_⟩
  exact (List.mem_append.mp he).elim (hes₁ e) (hes₂ e)

theorem Speaks.of_eq (h : Told v P c) (hclients : c₁.clients = c.clients)
    (hversions : c₁.protocolVersions = c.protocolVersions) (hout : c₁.out = c.out) : Speaks v P q c c₁ :=
  ⟨h.of_eq hclients hversions, hclients ▸ .refl, [], by simp [hout], List.forall_mem_nil _⟩

theorem Speaks.of_if {p : Prop} [Decidable p] (h : Told v P c) (hp : p → Speaks v P q c c₁) :
    Speaks v P q c (if p then c₁ else c) := by
  split
  · exact hp ‹_›
  · exact .refl h

theorem speaks_foldl {α : Type} {f : Core → α → Core} {l : List α} (h : Told v P c)
    (hf : ∀ c, ∀ a ∈ l, Told v P c → Speaks v P q c (f c a)) : Speaks v P q c (l.foldl f c) := by
  induction l generalizing c with
  | nil => exact .refl h
  | cons a l ih =>
    exact (hf c a List.mem_cons_self h).trans fun h => ih h fun c b hb => hf c b (List.mem_cons_of_mem _ hb)

theorem lockClients_speaks (h : Told v P c) : Speaks v P q c c.lockClients :=
  ⟨h.lock, Clients.lock_onward, [], (List.append_nil _).symm, List.forall_mem_nil _⟩

theorem emit_speaks {e : Effect} (h : Told v P c) (he : e.Spoken v P q) : Speaks v P q c (c.emit e) :=
  ⟨h.of_eq rfl rfl, .refl, [e], rfl, by simpa using he⟩

theorem delivery_spoken {cid : ClientId} {payload : Bytes} {why : Why} (h : Told v P c)
    (hcid : cid ∈ c.clients.channels) (hq : q cid why payload) : (c.delivery cid payload why).Spoken v P q :=
  ⟨h.connected cid hcid, h.here hcid, payload, rfl, hq⟩

theorem sendToClient_speaks {cid : ClientId} {payload : Bytes} {why : Why} (h : Told v P c) (hq : q cid why payload) :
    Speaks v P q c (c.sendToClient cid payload why) := by
  refine (lockClients_speaks h).trans fun h => .of_if h fun hcid => emit_speaks h ?_
  exact delivery_spoken h (List.contains_iff_mem.mp hcid) hq

theorem sendAllToClient_speaks {cid : ClientId} {payloads : List Bytes} {why : Why} (h : Told v P c)
    (hq : ∀ payload ∈ payloads, q cid why payload) : Speaks v P q c (c.sendAllToClient cid payloads why) :=
  speaks_foldl h fun _ payload hp h => sendToClient_speaks h (hq payload hp)

theorem broadcastToOthers_speaks {exclude : Option ClientId} {payload : Bytes} {why : Why} (h : Told v P c)
    (hq : ∀ cid, exclude ≠ some cid → q cid why payload) :
    Speaks v P q c (c.broadcastToOthers exclude payload why) := by
  refine (lockClients_speaks h).trans fun h => ⟨h.of_eq rfl rfl, .refl, _, rfl, fun e he => ?_⟩
  obtain ⟨cid, hcid, rfl⟩ := List.mem_map.mp he
  obtain ⟨hmem, hne⟩ := List.mem_filter.mp hcid
  exact delivery_spoken h hmem (hq cid (by simpa using hne))

/-! ### Operations -/

theorem followHead_speaks {id : MessageId} (h : Told v P c) : Speaks v P q c (c.followHead env id) := by
  have hdrop : Speaks v P q c c.dropGoneSessions :=
    ⟨h.dropGone, Clients.lock_onward, [], (List.append_nil _).symm, List.forall_mem_nil _⟩
  exact hdrop.trans fun h => speaks_foldl h fun _ _ _ h => .of_if h fun _ => .of_eq h rfl rfl rfl

theorem storeMessage_speaks {msg : NewMessage} (h : Told v P c)
    (hstored : ∀ row known, row.frame = some msg.frame → row.origin = msg.origin → P.emits (.stored row known)) :
    Speaks v P q c (c.storeMessage env msg) := by
  unfold storeMessage
  split
  · have hinsert : Speaks v P q c { c with db := c.db.insertMessage env.unix msg } := .of_eq h rfl rfl rfl
    have hspoken (known : List Identity) : (Effect.stored (c.db.newRow env.unix msg) known).Spoken v P q :=
      hstored _ known rfl NodeState.newRow_origin
    exact (hinsert.trans fun h => emit_speaks h (hspoken _)).trans followHead_speaks
  · exact .refl h

theorem registerSession_speaks {cmd : ClientCommand} (h : Told v P c) : Speaks v P q c (c.registerSession env cmd) := by
  by_cases hok : env.dbOk .registerAdvance = true
  · simp only [registerSession, hok, if_true]
    exact .of_eq h rfl rfl rfl
  · simp only [registerSession, hok]
    exact .of_eq h rfl rfl rfl

theorem notifyMissed_speaks {cid : ClientId} (h : Told v P c) (hq : q cid .notify [0x83]) :
    Speaks v P q c (c.notifyMissed cid) := by
  unfold notifyMissed
  split
  · split
    · exact .refl h
    · exact sendToClient_speaks h hq
  · exact .refl h

theorem firstFrame_stored {pending : List MessageId} {id : MessageId} {frame : Bytes}
    (h : c.firstFrame env pending = some (id, frame)) : c.db.messageFrame id = some frame ∧ id ∈ pending := by
  obtain ⟨id', hid, hframe⟩ := List.exists_of_findSome?_eq_some h
  split at hframe
  · obtain ⟨frame', hmessage, heq⟩ := Option.map_eq_some_iff.mp hframe
    cases heq
    exact ⟨hmessage, hid⟩
  · cases hframe

theorem nextMissed_stored {cid : ClientId} {id : MessageId} {frame : Bytes}
    (h : c.nextMissed env cid = some (id, frame)) : ∃ m ∈ c.db.messages, m.frame = some frame := by
  obtain ⟨s, -, hs⟩ := Option.bind_eq_some_iff.mp h
  obtain ⟨m, hm, hframe⟩ := Option.bind_eq_some_iff.mp (firstFrame_stored hs).1
  exact ⟨m, List.mem_of_find?_eq_some hm, hframe⟩

theorem replayPending_speaks {cid : ClientId} {s : Session} {pending : List MessageId} (h : Told v P c)
    (hq : ∀ id frame, c.firstFrame env pending = some (id, frame) → q cid (.replay id) frame) :
    Speaks v P q c (c.replayPending env cid s pending).2 := by
  induction pending generalizing c with
  | nil => exact .refl h
  | cons id rest ih =>
    have hpop : Speaks v P q c (c.setPending cid s rest) := .of_eq h rfl rfl rfl
    simp only [replayPending]
    split
    · rename_i hnone
      have hskip : c.firstFrame env (id :: rest) = c.firstFrame env rest := by
        refine List.findSome?_cons_of_isNone ?_
        split at hnone
        · rename_i hok
          have hmessage : c.db.messageFrame id = none := hnone
          rw [if_pos hok, hmessage]
          rfl
        · rename_i hok
          rw [if_neg hok]
          rfl
      exact hpop.trans fun h => ih h fun id frame hfirst => hq id frame (hskip.trans hfirst)
    · rename_i frame hframe
      have hfirst : c.firstFrame env (id :: rest) = some (id, frame) := by
        split at hframe
        · rename_i hok
          have hmessage : c.db.messageFrame id = some frame := hframe
          simp [firstFrame, hok, hmessage]
        · cases hframe
      refine (hpop.trans fun h => sendToClient_speaks h (hq id frame hfirst)).trans fun h => ?_
      exact .of_if h fun _ => .of_eq h rfl rfl rfl

theorem replayNextMissed_speaks {cid : ClientId} (h : Told v P c)
    (hq : ∀ id frame, c.nextMissed env cid = some (id, frame) → q cid (.replay id) frame) :
    Speaks v P q c (c.replayNextMissed env cid).2 := by
  unfold replayNextMissed
  split
  · exact .refl h
  · rename_i s hs
    refine (replayPending_speaks h fun id frame hfirst => hq id frame ?_).trans fun h => .of_if h fun _ =>
      .of_eq h rfl rfl rfl
    rw [nextMissed, hs, Option.bind_some, hfirst]

theorem synthesizeEcho_speaks {cid : ClientId} {f : InFlight} {echo : NewMessage} (h : Told v P c)
    (hq : ∀ cid', cid ≠ cid' → q cid' (.echo f.ticket) echo.frame)
    (hstored : ∀ row known, row.frame = some echo.frame → row.origin = f.origin → P.emits (.stored row known)) :
    Speaks v P q c (c.synthesizeEcho env cid f echo) :=
  (broadcastToOthers_speaks h fun cid' hne => hq cid' fun heq => hne (heq ▸ rfl)).trans fun h =>
    storeMessage_speaks h hstored

theorem serveBlob_speaks {cid : ClientId} {blob : Option Bytes} (h : Told v P c)
    (hq : ∀ payload, blob = some payload → q cid .cached payload) : Speaks v P q c (c.serveBlob cid blob).2 := by
  cases blob with
  | none => exact .refl h
  | some blob => exact sendToClient_speaks h (hq blob rfl)

/-- The frames of the cached tables are short, and none is a message. -/
structure IsRow (frame : Bytes) : Prop where
  len : frame.length ≤ 148
  code : frame.head? = some 0x02 ∨ frame.head? = some 0x03 ∨ frame.head? = some 0x04 ∨ frame.head? = some 0x12

theorem contactFrame_isRow {contact : CachedContact} : IsRow (contactFrame contact).bytes := by
  refine ⟨Nat.le_of_eq (contactFrame contact).len, Or.inr (Or.inl ?_)⟩
  unfold contactFrame
  split
  · split
    · rename_i raw _ hlen
      have hpos : 0 < (slice raw 0 contactFrameLen ⟨Nat.zero_le _, hlen⟩).length := by
        rw [slice_length]
        decide
      rw [List.head?_eq_getElem?, List.getElem?_set_self hpos]
    · rfl
  · rfl

theorem contactsReply_isRow {contacts : List CachedContact} {since : Option Nat} :
    ∀ frame ∈ contactsReply contacts since, IsRow frame := by
  intro frame hframe
  rcases List.mem_cons.mp hframe with rfl | hframe
  · exact ⟨by simp, Or.inl rfl⟩
  · rcases List.mem_append.mp hframe with hframe | hframe
    · obtain ⟨contact, hcontact, rfl⟩ := List.mem_map.mp hframe
      obtain ⟨row, -, rfl⟩ := List.mem_map.mp (List.mem_filter.mp hcontact).1
      exact contactFrame_isRow
    · obtain rfl := List.mem_singleton.mp hframe
      exact ⟨by simp, Or.inr (Or.inr (Or.inl rfl))⟩

theorem channelInfoFrame_isRow {channel : CachedChannel} : IsRow (channelInfoFrame channel) :=
  ⟨by simp [channelInfoFrame], Or.inr (Or.inr (Or.inr rfl))⟩

/-- A blob of the cache. -/
def IsBlob (c : Core) (blob : Bytes) : Prop :=
  c.selfInfoRaw = some blob ∨ c.deviceInfoRaw = some blob ∨ c.batteryInfoRaw = some blob

/-- The blob of the cache that a command reads. -/
def ReadsBlob (c : Core) (code : UInt8) (blob : Bytes) : Prop :=
  code = 0x01 ∧ c.selfInfoRaw = some blob ∨ code = 0x16 ∧ c.deviceInfoRaw = some blob ∨
    code = 0x14 ∧ c.batteryInfoRaw = some blob

theorem ReadsBlob.isBlob {code : UInt8} {blob : Bytes} (h : c.ReadsBlob code blob) : c.IsBlob blob :=
  h.imp And.right (Or.imp And.right And.right)

theorem tryServeFromCache_speaks {code : UInt8} {cmd : ClientCommand} (h : Told v P c)
    (hblob : ∀ blob, c.ReadsBlob code blob → q cmd.clientId .cached blob)
    (hrow : ∀ frame, code = 0x04 ∨ code = 0x1F → IsRow frame → q cmd.clientId .cached frame) :
    Speaks v P q c (c.tryServeFromCache env code cmd).2 := by
  unfold tryServeFromCache
  split
  · exact serveBlob_speaks h fun blob hb => hblob blob (Or.inl ⟨rfl, hb⟩)
  · exact serveBlob_speaks h fun blob hb => hblob blob (Or.inr (Or.inl ⟨rfl, hb⟩))
  · exact serveBlob_speaks h fun blob hb => hblob blob (Or.inr (Or.inr ⟨rfl, hb⟩))
  · split
    · exact sendAllToClient_speaks h fun frame hf => hrow frame (Or.inl rfl) (contactsReply_isRow frame hf)
    · exact .refl h
  · dsimp only
    split
    · split
      · exact sendToClient_speaks h (hrow _ (Or.inr rfl) channelInfoFrame_isRow)
      · exact .refl h
    · exact .refl h
  · exact .refl h

theorem extractRadioIdentity_speaks {blob : Bytes} (h : c.extractRadioIdentity blob = .ok c₁) (ht : Told v P c) :
    Speaks v P q c c₁ := by
  obtain ⟨d, -, h⟩ := Except.of_bind_eq_ok h
  have hkey : Speaks v P q c (if h : 36 ≤ blob.length then
      { c with radioPubkey := some ⟨slice blob 4 36 ⟨by omega, h⟩, by simp⟩ } else c) := by
    split
    · exact .of_eq ht rfl rfl rfl
    · exact .refl ht
  split at h <;> cases h
  · exact hkey.trans fun ht => .of_eq ht rfl rfl rfl
  · exact hkey

theorem extractMaxChannels_speaks {blob : Bytes} (h : c.extractMaxChannels blob = .ok c₁) (ht : Told v P c) :
    Speaks v P q c c₁ := by
  obtain ⟨d, -, h⟩ := Except.of_bind_eq_ok h
  split at h <;> cases h
  · exact .of_if ht fun _ => .of_eq ht rfl rfl rfl
  · exact .refl ht

theorem kvSet_speaks {key : KvKey} {value : Bytes} (ht : Told v P c) : Speaks v P q c (c.kvSet env key value) :=
  .of_if ht fun _ => .of_eq ht rfl rfl rfl

theorem cacheResponse_speaks {code : UInt8} {frame : Bytes} (h : c.cacheResponse env code frame = .ok c₁)
    (ht : Told v P c)
    (hstored : ∀ row known, Scope.fansOut code → row.frame = some frame → row.origin = none →
      P.emits (.stored row known)) : Speaks v P q c c₁ := by
  unfold cacheResponse at h
  split at h
  · cases h
    split
    · exact .of_if ht fun _ => .of_eq ht rfl rfl rfl
    · exact .refl ht
  · obtain ⟨c₂, hc₂, h⟩ := Except.of_bind_eq_ok h
    cases h
    exact ((kvSet_speaks ht).trans (extractRadioIdentity_speaks hc₂)).trans fun ht => .of_eq ht rfl rfl rfl
  · cases h
    exact (kvSet_speaks ht).trans fun ht => .of_eq ht rfl rfl rfl
  · obtain ⟨c₂, hc₂, h⟩ := Except.of_bind_eq_ok h
    cases h
    exact ((kvSet_speaks ht).trans (extractMaxChannels_speaks hc₂)).trans fun ht => .of_eq ht rfl rfl rfl
  · obtain ⟨d, -, h⟩ := Except.of_bind_eq_ok h
    split at h <;> cases h
    · exact storeMessage_speaks ht fun row known => hstored row known (by decide)
    · exact .refl ht
  · obtain ⟨d, -, h⟩ := Except.of_bind_eq_ok h
    split at h <;> cases h
    · exact storeMessage_speaks ht fun row known => hstored row known (by decide)
    · exact .refl ht
  · cases h
    split
    · exact storeMessage_speaks ht fun row known => hstored row known (by decide)
    · exact .refl ht
  · cases h
    split
    · exact storeMessage_speaks ht fun row known => hstored row known (by decide)
    · exact .refl ht
  · cases h
    split
    · exact .of_if ht fun _ => .of_eq ht rfl rfl rfl
    · exact .refl ht
  · cases h
    exact .refl ht

theorem startWith_speaks {r : Queued} (ht : Told v P c) (hradio : P.emits (.radio r)) :
    Speaks v P q c (c.startWith env r) := by
  obtain ⟨_, _, _, _, hform, -⟩ := startWith_form c env r
  rw [hform]
  exact ⟨ht.of_eq rfl rfl, .refl, [.radio r], rfl, by simpa [Effect.Spoken] using hradio⟩

theorem pushBack_speaks {clientId : Option ClientId} {p : Command} (ht : Told v P c)
    (hhanded : ∀ t, P.emits (.handed ⟨clientId, p, t⟩)) : Speaks v P q c (c.pushBack clientId p) := by
  have hhand : Speaks v P q c (c.hand clientId p).2 :=
    ⟨ht.of_eq rfl rfl, .refl, [.handed ⟨clientId, p, c.nextTicket⟩], rfl,
      by simpa [Effect.Spoken] using hhanded c.nextTicket⟩
  exact hhand.trans fun ht => .of_eq ht rfl rfl rfl

theorem afterAccepted_speaks {f : InFlight} (ht : Told v P c)
    (hhanded : ∀ p, p.code = 0x04 ∨ p.code = 0x1E ∨ p.code = 0x1F → ∀ t, P.emits (.handed ⟨none, p, t⟩)) :
    Speaks v P q c (c.afterAccepted env f) := by
  unfold afterAccepted
  dsimp only
  split
  · split
    · exact .of_if ht fun _ => .of_eq ht rfl rfl rfl
    · exact .refl ht
  · split
    · exact pushBack_speaks ht (hhanded _ (Or.inr (Or.inl rfl)))
    · exact .refl ht
  · split
    · exact pushBack_speaks ht (hhanded _ (Or.inr (Or.inl rfl)))
    · exact .refl ht
  · exact pushBack_speaks ht (hhanded _ (Or.inl rfl))
  · exact .of_eq ht rfl rfl rfl
  · exact .refl ht

theorem restoreBlobs_speaks (h : c.restoreBlobs env = .ok c₁) (ht : Told v P c) : Speaks v P q c c₁ := by
  obtain ⟨c₂, hc₂, h⟩ := Except.of_bind_eq_ok h
  obtain ⟨c₃, hc₃, h⟩ := Except.of_bind_eq_ok h
  cases h
  have h₂ : Speaks v P q c c₂ := by
    unfold restoreSelfInfo at hc₂
    split at hc₂
    · obtain ⟨c', hc', h⟩ := Except.of_bind_eq_ok hc₂
      cases h
      exact (extractRadioIdentity_speaks hc' ht).trans fun ht => .of_eq ht rfl rfl rfl
    · cases hc₂
      exact .refl ht
  have h₃ (ht : Told v P c₂) : Speaks v P q c₂ c₃ := by
    unfold restoreDeviceInfo at hc₃
    split at hc₃
    · obtain ⟨c', hc', h⟩ := Except.of_bind_eq_ok hc₃
      cases h
      exact (extractMaxChannels_speaks hc' ht).trans fun ht => .of_eq ht rfl rfl rfl
    · cases hc₃
      exact .refl ht
  refine (h₂.trans h₃).trans fun ht => ?_
  unfold restoreBatteryInfo
  split
  · exact .of_eq ht rfl rfl rfl
  · exact .refl ht

theorem recordVersion_speaks {code : UInt8} {cmd : ClientCommand} (ht : Told v P c)
    (hborn : cmd.clientId < c.clients.nextId)
    (hv : ∀ version, code = 0x16 → cmd.payload[1]? = some version → v cmd.clientId = version) :
    Speaks v P q c (c.recordVersion code cmd) := by
  unfold recordVersion
  split
  · rename_i version hversion
    refine .of_if ht fun hcode => ⟨⟨fun cid hcid => ?_, fun cid hcid => ?_, ht.valid, ht.met⟩, .refl, [], by simp,
      List.forall_mem_nil _⟩
    · simp only [protocolVersion, Table.lookup_insert_eq]
      split
      · rename_i heq
        rw [heq, hv version hcode hversion]
        rfl
      · exact ht.connected cid hcid
    · have hne : cid ≠ cmd.clientId := fun heq => Nat.lt_irrefl _ (Nat.lt_of_lt_of_le hborn (heq ▸ hcid))
      simp only [protocolVersion, Table.lookup_insert_eq, if_neg hne]
      exact ht.unborn cid hcid
  · exact .refl ht

/-! ### Writes -/

/-- Where a payload for a client comes from, in a turn that draws on `S` and has come to `c`. -/
inductive Source (S : Scope) (c : Core) (cid : ClientId) : Why → Bytes → Prop
  | reply {f : InFlight} {frame : Bytes} (h : S.Answers f frame) (hclient : f.clientId = some cid) :
      Source S c cid (.reply f.ticket) frame
  | fanout {f : InFlight} {frame : Bytes} {code : UInt8} (h : S.Answers f frame) (hclient : f.clientId ≠ some cid)
      (hpoll : f.cmdCode = 0x0A) (hcode : frame.head? = some code) (hmessage : Scope.fansOut code) :
      Source S c cid (.fanout f.ticket) frame
  | ack {frame : Bytes} (hframe : S.frame frame) (hcode : frame.head? = some 0x82) : Source S c cid .ack frame
  | error (t : Ticket) : Source S c cid (.error t) [0x01, 0x01]
  | notify (h : S.Starts cid) : Source S c cid .notify [0x83]
  | replay {env : Env} {cmd : ClientCommand} {id : MessageId} {frame : Bytes} (henv : S.env env) (hcmd : S.command cmd)
      (hpoll : cmd.payload.head? = some 0x0A) (hclient : cmd.clientId = cid)
      (hnext : c.nextMissed env cid = some (id, frame)) (hmissed : S.missed cid id frame) :
      Source S c cid (.replay id) frame
  | blob {cmd : ClientCommand} {code : UInt8} {blob : Bytes} (hcmd : S.command cmd) (hclient : cmd.clientId = cid)
      (hcode : cmd.payload.head? = some code) (h : c.ReadsBlob code blob) : Source S c cid .cached blob
  | row {cmd : ClientCommand} {code : UInt8} {frame : Bytes} (hcmd : S.command cmd) (hclient : cmd.clientId = cid)
      (hcode : cmd.payload.head? = some code) (hread : code = 0x04 ∨ code = 0x1F) (h : IsRow frame) :
      Source S c cid .cached frame
  | echo {f : InFlight} {sender : ClientId} {echo : NewMessage} (h : S.Accepts f) (hclient : f.clientId = some sender)
      (hne : sender ≠ cid) (hecho : c.EchoOf f echo) : Source S c cid (.echo f.ticket) echo.frame

/-- A row that a turn stores: a message of the radio, or the echo of a request it accepted. -/
inductive Scope.Stores (S : Scope) (row : MessageRow) : Prop
  | frame {frame : Bytes} {code : UInt8} (hframe : S.frame frame) (hcode : frame.head? = some code)
      (hmessage : Scope.fansOut code) (hrow : row.frame = some frame) (horigin : row.origin = none)
  | echo {f : InFlight} {cid : ClientId} (h : S.Accepts f) (hclient : f.clientId = some cid)
      (hsend : f.cmdCode = 0x02 ∨ f.cmdCode = 0x03) (horigin : row.origin = f.origin)

/-- What a turn that draws on `S` may emit besides what goes to a client. -/
inductive Scope.Emits (S : Scope) : Effect → Prop
  | logs {e : Effect} (h : S.Logs e) : S.Emits e
  | radio (q : Queued) : S.Emits (.radio q)
  | init {p : Command} (hp : p = buildAppstart ∨ p = deviceQuery) : S.Emits (.radioInit p)
  | broadcast {frame : Bytes} (hframe : S.frame frame) : S.Emits (.broadcast frame)
  | stored {row : MessageRow} (known : List Identity) (h : S.Stores row) : S.Emits (.stored row known)

variable {S : Scope}

theorem Scope.Emits.negotiates {e : Effect} (h : S.Emits e) : e.Negotiates := by
  cases h with
  | logs h =>
    cases h with
    | client => exact forwardedPayload_negotiates
    | internal hcode => exact fun h => by rcases hcode with hcode | hcode | hcode <;> rw [hcode] at h <;> cases h
    | ended | accepted | ackPending => trivial
  | init hp =>
    rcases hp with rfl | rfl
    · exact fun h => by cases h
    · exact fun _ => rfl
  | radio | broadcast | stored => trivial

theorem Scope.Emits.received {frame : Bytes} (h : S.Emits (.broadcast frame)) : S.frame frame := by
  cases h with
  | logs h => cases h
  | broadcast hframe => exact hframe

/-- A turn that records the version of a DEVICE_QUERY draws on a client that has an id, and may emit what it draws
    on. -/
structure Recorded (S : Scope) (v : ClientId → UInt8) (P : Audience) (c : Core) : Prop where
  emits : ∀ e, S.Emits e → P.emits e
  version : ∀ cmd, S.command cmd → cmd.clientId < c.clients.nextId ∧
    ∀ version, cmd.payload.head? = some 0x16 → cmd.payload[1]? = some version → v cmd.clientId = version

/-- What a write sends to clients comes from one of the sources, laid out for the version they asked for. -/
theorem Write.speaks (h : Write S c c₁) (ht : Told v P c) (hrecorded : Recorded S v P c) :
    Speaks v P (Source S c) c c₁ := by
  cases h with
  | queue hmemory hout =>
    obtain ⟨es, hout, hes⟩ := hout
    simp only [memory, Prod.mk.injEq] at hmemory
    obtain ⟨-, -, -, -, -, -, -, -, hclients, -, hversions⟩ := hmemory
    refine ⟨ht.of_eq hclients hversions, hclients ▸ .refl, es, hout, fun e he => ?_⟩
    have hemits : P.emits e := hrecorded.emits e (.logs (hes e he))
    cases hes e he <;> exact hemits
  | lock => exact lockClients_speaks ht
  | start => exact startWith_speaks ht (hrecorded.emits _ (.radio _))
  | init hp => exact emit_speaks ht (hrecorded.emits _ (.init hp))
  | error cid t => exact sendToClient_speaks ht (.error t)
  | reply h hclient => exact sendToClient_speaks ht (.reply h hclient)
  | fanout h hpoll hcode hmessage => exact broadcastToOthers_speaks ht fun cid hne => .fanout h hne hpoll hcode hmessage
  | ack cid hframe hcode => exact sendToClient_speaks ht (.ack hframe hcode)
  | broadcast hframe => exact emit_speaks ht (hrecorded.emits _ (.broadcast hframe))
  | notify h => exact notifyMissed_speaks ht (.notify h)
  | register => exact registerSession_speaks ht
  | version hcmd hne =>
    obtain ⟨hborn, hv⟩ := hrecorded.version _ hcmd
    exact recordVersion_speaks ht hborn fun version hcode => hv version (by rw [List.head?_eq_some_head hne, hcode])
  | replay henv hcmd hpoll hmissed =>
    exact replayNextMissed_speaks ht fun id frame hnext => .replay henv hcmd hpoll rfl hnext (hmissed id frame hnext)
  | cached _ hcmd hne =>
    have hcode := List.head?_eq_some_head hne
    exact tryServeFromCache_speaks ht (fun _ => .blob hcmd rfl hcode) fun _ => .row hcmd rfl hcode
  | cache _ hframe hcode h =>
    exact cacheResponse_speaks h ht fun row known hmessage hrow horigin =>
      hrecorded.emits _ (.stored known (.frame hframe hcode hmessage hrow horigin))
  | raw => exact .of_if ht fun _ => .of_eq ht rfl rfl rfl
  | accept => exact afterAccepted_speaks ht fun p hcode t => hrecorded.emits _ (.logs (.internal hcode t))
  | echo _ h hclient hecho =>
    exact synthesizeEcho_speaks ht (fun cid hne => .echo h hclient hne hecho) fun row known _ horigin =>
      hrecorded.emits _ (.stored known (.echo h hclient hecho.sends horigin))
  | maintain => exact .of_eq ht rfl rfl rfl
  | restore _ _ h => exact restoreBlobs_speaks h ht

/-! ### Turns -/

theorem spoken_imp {q' : ClientId → Why → Bytes → Prop} {e : Effect} (h : e.Spoken v P q)
    (hq : ∀ cid why payload, P.met cid → q cid why payload → q' cid why payload) : e.Spoken v P q' := by
  cases e with
  | client cid who version frame why =>
    obtain ⟨hversion, hmet, payload, hframe, hpayload⟩ := h
    exact ⟨hversion, hmet, payload, hframe, hq cid why payload hmet hpayload⟩
  | _ => exact h

variable {I : Core → Prop}

/-- Writes that keep `I` speak payloads that satisfy `q`, where each source does under `I`. -/
theorem writes_speak (hw : Writes S c c₁) (ht : Told v P c) (hI : I c) (hrecorded : Recorded S v P c)
    (hkeep : ∀ c c₁, Write S c c₁ → I c → I c₁)
    (hsource : ∀ c, I c → ∀ cid why payload, P.met cid → Source S c cid why payload → q cid why payload) :
    Speaks v P q c c₁ ∧ I c₁ := by
  have hall : Speaks v P q c c₁ ∧ I c₁ ∧ Recorded S v P c₁ := by
    refine Writes.keeps (P := fun c₁ => Speaks v P q c c₁ ∧ I c₁ ∧ Recorded S v P c₁) hw ⟨.refl ht, hI, hrecorded⟩ ?_
    rintro c₂ c₃ hw ⟨hspeaks, hI, hrecorded⟩
    have hwrite := hw.speaks hspeaks.told hrecorded
    refine ⟨hspeaks.trans fun _ => ⟨hwrite.told, hwrite.clients, ?_⟩, hkeep c₂ c₃ hw hI, hrecorded.emits,
      fun cmd hcmd => ?_⟩
    · obtain ⟨es, hout, hes⟩ := hwrite.out
      exact ⟨es, hout, fun e he => spoken_imp (hes e he) (hsource c₂ hI)⟩
    · obtain ⟨hborn, hv⟩ := hrecorded.version cmd hcmd
      exact ⟨Nat.lt_of_lt_of_le hborn hwrite.clients.later.nextId, hv⟩
  exact ⟨hall.1, hall.2.1⟩

/-- Everything emitted so far was spoken for the versions `v`, from payloads that satisfy `q`. -/
structure Tells (v : ClientId → UInt8) (P : Audience) (q : ClientId → Why → Bytes → Prop) (c : Core) : Prop where
  told : Told v P c
  out : ∀ e ∈ c.out, e.Spoken v P q

theorem Speaks.tells (h : Speaks v P q c c₁) (hout : c.out = []) : Tells v P q c₁ := by
  obtain ⟨es, hout₁, hes⟩ := h.out
  rw [hout, List.nil_append] at hout₁
  exact ⟨h.told, hout₁ ▸ hes⟩

/-- The version that a command asks for, if it is a DEVICE_QUERY that carries one. -/
def askedVersion (cmd : ClientCommand) : Option UInt8 := if cmd.payload.head? = some 0x16 then cmd.payload[1]? else none

/-- The versions that the clients asked for last, once `e` is handled too; a client that is gone asks for nothing. -/
def Event.asked (v : ClientId → UInt8) (c : Core) : Event → ClientId → UInt8
  | .command _ cmd =>
    match askedVersion cmd with
    | some version => if c.lockClients.clients.channels.contains cmd.clientId
        then Function.update v cmd.clientId version else v
    | none => v
  | _ => v

/-- The versions once a DEVICE_QUERY is handled. -/
def askedBy (v : ClientId → UInt8) (cmd : ClientCommand) : ClientId → UInt8 :=
  match askedVersion cmd with
  | some version => Function.update v cmd.clientId version
  | none => v

theorem recordVersion_told {cmd : ClientCommand} (hne : cmd.payload ≠ []) (ht : Told v P c)
    (hborn : cmd.clientId < c.clients.nextId) :
    Told (askedBy v cmd) P (c.recordVersion (cmd.payload.head hne) cmd) := by
  have hhead := List.head?_eq_some_head hne
  by_cases hcode : cmd.payload.head hne = 0x16
  · cases hversion : cmd.payload[1]? with
    | none => simpa only [recordVersion, askedBy, askedVersion, hhead, hcode, hversion, if_true] using ht
    | some version =>
      simp only [recordVersion, askedBy, askedVersion, hhead, hcode, hversion, if_true]
      refine ⟨fun cid hcid => ?_, fun cid hcid => ?_, ht.valid, ht.met⟩
      · simp only [protocolVersion, Table.lookup_insert_eq, Function.update_apply]
        split
        · rfl
        · exact ht.connected cid hcid
      · have hother : cid ≠ cmd.clientId := fun heq => Nat.lt_irrefl _ (Nat.lt_of_lt_of_le hborn (heq ▸ hcid))
        simp only [protocolVersion, Table.lookup_insert_eq, Function.update_apply, if_neg hother]
        exact ht.unborn cid hcid
  · have hasked : askedBy v cmd = v := by
      simp [askedBy, askedVersion, hhead, hcode]
    have hsame : c.recordVersion (cmd.payload.head hne) cmd = c := by
      unfold recordVersion
      split
      · exact if_neg hcode
      · rfl
    rw [hasked, hsame]
    exact ht

/-- In one turn, what goes to clients is laid out for the versions they have asked for by then. -/
theorem handle_tells {e : Event} (h : c.handle e = .ok c₁) (ht : Told v P c) (hout : c.out = []) (hI : I c)
    (hemits : ∀ e', (e.scope c).Emits e' → P.emits e')
    (hkeep : ∀ c₂ c₃, Write (e.scope c) c₂ c₃ → I c₂ → I c₃)
    (hsource : ∀ c₂, I c₂ → ∀ cid why payload, P.met cid → Source (e.scope c) c₂ cid why payload → q cid why payload) :
    Tells (e.asked v c) P q c₁ ∧ I c₁ := by
  have hsilent (v : ClientId → UInt8) {c : Core} (ht : Told v P c) (hout : c.out = []) : Tells v P q c :=
    ⟨ht, by rw [hout]; exact List.forall_mem_nil _⟩
  have hother (hno : ∀ cmd, ¬(e.scope c).command cmd) : Tells v P q c₁ ∧ I c₁ :=
    (writes_speak (handle_writes h) ht hI ⟨hemits, fun cmd hcmd => absurd hcmd (hno cmd)⟩ hkeep hsource).imp_left
      (·.tells hout)
  cases e with
  | command env cmd =>
    have h : c.handleClientCommand env cmd = .ok c₁ := h
    unfold handleClientCommand at h
    split at h
    · rename_i hempty
      cases h
      have hasked : (Event.command env cmd).asked v c = v := by
        simp [Event.asked, askedVersion, hempty]
      rw [hasked]
      exact ⟨hsilent v ht hout, hI⟩
    · rename_i hne
      have hlockI : I c.lockClients := hkeep _ _ .lock hI
      dsimp only [clientIsAlive] at h
      cases halive : c.lockClients.clients.channels.contains cmd.clientId with
      | false =>
        rw [halive] at h
        cases h
        have hasked : (Event.command env cmd).asked v c = v := by
          simp only [Event.asked, halive, Bool.false_eq_true, if_false]
          split <;> rfl
        rw [hasked]
        exact ⟨hsilent v ht.lock hout, hlockI⟩
      | true =>
        rw [halive] at h
        obtain ⟨-, -, h⟩ := Except.of_bind_eq_ok h
        cases h
        have hasked : (Event.command env cmd).asked v c = askedBy v cmd := by
          simp only [Event.asked, askedBy, halive, if_true]
        have hlock : Told v P c.lockClients := ht.lock
        have hborn : cmd.clientId < c.lockClients.clients.nextId :=
          hlock.valid.born _ (List.contains_iff_mem.mp halive)
        -- What comes before the first frame: the session and the version.
        obtain ⟨c₂, hc₂, ht₂, hI₂, hout₂, hborn₂⟩ : ∃ c₂, c₂ = (if Command.code ⟨cmd.payload, hne⟩ = 0x01 then
            c.lockClients.registerSession env cmd else c.lockClients) ∧ Told v P c₂ ∧ I c₂ ∧ c₂.out = [] ∧
            cmd.clientId < c₂.clients.nextId := by
          refine ⟨_, rfl, ?_⟩
          split
          · rename_i hcode
            have hregister :
                Write ((Event.command env cmd).scope c) c.lockClients (c.lockClients.registerSession env cmd) :=
              .register rfl rfl (head?_of_code hne hcode)
            have hspeaks : Speaks v P (fun _ _ _ => True) c.lockClients (c.lockClients.registerSession env cmd) :=
              registerSession_speaks hlock
            refine ⟨hspeaks.told, hkeep _ _ hregister hlockI, ?_, Nat.lt_of_lt_of_le hborn hspeaks.clients.later.nextId⟩
            unfold registerSession
            dsimp only
            split <;> exact hout
          · exact ⟨hlock, hlockI, hout, hborn⟩
        rw [hasked, serveCommand_eq, ← hc₂]
        have hversion : Write ((Event.command env cmd).scope c) c₂ (c₂.recordVersion (cmd.payload.head hne) cmd) :=
          .version rfl hne
        have hout₃ : (c₂.recordVersion (cmd.payload.head hne) cmd).out = [] := by
          unfold recordVersion
          split
          · split <;> exact hout₂
          · exact hout₂
        have hnext : (c₂.recordVersion (cmd.payload.head hne) cmd).clients.nextId = c₂.clients.nextId := by
          unfold recordVersion
          split
          · split <;> rfl
          · rfl
        have hrecorded : Recorded ((Event.command env cmd).scope c) (askedBy v cmd) P
            (c₂.recordVersion (cmd.payload.head hne) cmd) := by
          refine ⟨hemits, ?_⟩
          rintro cmd' rfl
          refine ⟨hnext ▸ hborn₂, fun version hcode hbyte => ?_⟩
          simp [askedBy, askedVersion, hcode, hbyte]
        have hmissed (hpoll : cmd.payload.head? = some 0x0A) (id : MessageId) (frame : Bytes)
            (hnext : (c₂.recordVersion (cmd.payload.head hne) cmd).nextMissed env cmd.clientId = some (id, frame)) :
            c.nextMissed env cmd.clientId = some (id, frame) := by
          rw [hc₂, identified_nextMissed hne hpoll] at hnext
          exact hnext
        exact (writes_speak (serveIdentified_writes rfl rfl hne hmissed) (recordVersion_told hne ht₂ hborn₂)
          (hkeep _ _ hversion hI₂) hrecorded hkeep hsource).imp_left (·.tells hout₃)
  | radio | timeoutTick | maintenanceTick | disconnected | idle => exact hother fun _ h => h

/-- What goes to clients before the proxy has started; they have asked for nothing yet. -/
theorem start_tells {config : Config} {db : NodeState} {env : Env} {first : Attempt} {attempts : List Attempt}
    (h : (Core.new config db).start env first attempts = .ok c) (hI : I (Core.new config db))
    (hkeep : ∀ c₂ c₃, Write (startScope env (first :: attempts)) c₂ c₃ → I c₂ → I c₃)
    (hsource : ∀ c₂, I c₂ → ∀ cid why payload, Source (startScope env (first :: attempts)) c₂ cid why payload →
      q cid why payload) :
      Tells (fun _ => 0) ⟨fun _ => True, (startScope env (first :: attempts)).Emits⟩ q c ∧ I c := by
  have hnew : Told (fun _ => 0) ⟨fun _ => True, (startScope env (first :: attempts)).Emits⟩ (Core.new config db) :=
    ⟨fun _ h => absurd h List.not_mem_nil, fun _ _ => ⟨rfl, rfl⟩, ⟨nofun, List.nodup_nil⟩, fun _ _ => trivial⟩
  exact (writes_speak (start_writes h) hnew hI ⟨fun _ h => h, fun _ h => absurd h id⟩ hkeep
      fun c hI cid why payload _ =>
    hsource c hI cid why payload).imp_left (·.tells rfl)

/-- A start emits only what its scope allows. -/
theorem start_emits {config : Config} {db : NodeState} {env : Env} {first : Attempt} {attempts : List Attempt}
    (hstart : (Core.new config db).start env first attempts = .ok c) :
    Tells (fun _ => 0) ⟨fun _ => True, (startScope env (first :: attempts)).Emits⟩ (fun _ _ _ => True) c :=
  (start_tells (I := fun _ => True) hstart trivial (fun _ _ _ _ => trivial) fun _ _ _ _ _ _ => trivial).1

theorem Told.forget {emits : Effect → Prop} (h : Told v P c) : Told v ⟨fun _ => True, emits⟩ c :=
  ⟨h.connected, h.unborn, h.valid, fun _ _ => trivial⟩

/-- Whom a turn may meet, and what else it may emit. -/
def Event.audience (c : Core) (e : Event) : Audience := ⟨c.clients.Meets, (e.scope c).Emits⟩

theorem Told.begin {frontend : List (List FrontendOp)} (h : Told v P c) (emits : Effect → Prop) :
    Told v ⟨(c.begin frontend).clients.Meets, emits⟩ (c.begin frontend) :=
  ⟨h.connected, h.unborn, ⟨h.valid.born, h.valid.nodup⟩, fun _ hmet => hmet⟩

/-- A turn of the main loop; it sends only to clients that it meets. -/
theorem step_tells {frontend : List (List FrontendOp)} {e : Event} (h : c.step frontend e = .ok c₁) (ht : Told v P c)
    (hI : I (c.begin frontend)) (hkeep : ∀ c₂ c₃, Write (e.scope (c.begin frontend)) c₂ c₃ → I c₂ → I c₃)
    (hsource : ∀ c₂, I c₂ → ∀ cid why payload, (c.begin frontend).clients.Meets cid →
      Source (e.scope (c.begin frontend)) c₂ cid why payload → q cid why payload) :
    Tells (e.asked v (c.begin frontend)) (e.audience (c.begin frontend)) q c₁ ∧ I c₁ :=
  handle_tells h (ht.begin _) rfl hI (fun _ h => h) hkeep hsource

/-- A turn emits only what its scope allows. -/
theorem step_emits {frontend : List (List FrontendOp)} {e : Event} (h : c.step frontend e = .ok c₁) (ht : Told v P c) :
    Tells (e.asked v (c.begin frontend)) (e.audience (c.begin frontend)) (fun _ _ _ => True) c₁ :=
  (step_tells (I := fun _ => True) h ht trivial (fun _ _ _ _ => trivial) fun _ _ _ _ _ _ _ => trivial).1

/-- A run of the main loop whose turns satisfy `p`, with the versions that the clients asked for last. -/
inductive AskingRun (p : (ClientId → UInt8) → Core → List (List FrontendOp) → Event → Prop)
    (v₀ : ClientId → UInt8) (c₀ : Core) : List Effect → (ClientId → UInt8) → Core → Prop
  | refl : AskingRun p v₀ c₀ [] v₀ c₀
  | step {v : ClientId → UInt8} {c c₁ : Core} {h : List Effect} {frontend : List (List FrontendOp)} {e : Event} :
      AskingRun p v₀ c₀ h v c → p v c frontend e → c.step frontend e = .ok c₁ →
      AskingRun p v₀ c₀ (h ++ c₁.out) (e.asked v (c.begin frontend)) c₁

variable {p : (ClientId → UInt8) → Core → List (List FrontendOp) → Event → Prop} {v₀ : ClientId → UInt8} {c₀ : Core}
  {h : List Effect}

theorem AskingRun.run (hr : AskingRun p v₀ c₀ h v c) : Run (fun _ _ _ => True) c₀ h c := by
  induction hr with
  | refl => exact .refl _
  | step _ _ hs ih => exact ih.step trivial hs

theorem AskingRun.told (hr : AskingRun p v₀ c₀ h v c) (ht : Told v₀ .any c₀) : Told v .any c := by
  induction hr with
  | refl => exact ht
  | step _ _ hs ih => exact (step_emits hs ih).told.forget

/-- A proxy that has just started was asked for nothing. -/
theorem start_told {config : Config} {db : NodeState} {env : Env} {first : Attempt} {attempts : List Attempt}
    (hstart : (Core.new config db).start env first attempts = .ok c) : Told (fun _ => 0) .any c :=
  (start_emits hstart).told.forget

/-- A trace goes on with such a run, where its turns satisfy `p` whatever the clients asked for. -/
theorem AskingRun.trace {l : List Lap} (hr : AskingRun p v₀ c₀ h v c) (htrace : Trace c l c₁)
    (hp : ∀ s ∈ l, ∀ v, p v s.before s.frontend s.event) : ∃ v₁, AskingRun p v₀ c₀ (h ++ history l) v₁ c₁ := by
  induction htrace generalizing h v with
  | nil => exact ⟨v, by simpa [history] using hr⟩
  | cons hs _ ih =>
    obtain ⟨hhead, hrest⟩ := List.forall_mem_cons.mp hp
    simpa [history] using ih (hr.step (hhead v) hs) hrest

/-- Whoever has asked for what in a run, the versions that the core keeps are the ones asked for last. -/
theorem Reachable.told (hr : Reachable h c) : Told c.protocolVersion .any c := by
  obtain ⟨config, db, env, first, attempts, c₀, h', -, -, hstart, hrun, -⟩ := hr
  obtain ⟨v, ht⟩ : ∃ v, Told v .any c := by
    induction hrun with
    | refl => exact ⟨_, start_told hstart⟩
    | step _ _ hs ih =>
      obtain ⟨v, ht⟩ := ih
      exact ⟨_, (step_emits hs ht).told.forget⟩
  exact ⟨fun _ _ => rfl, fun cid hcid => ⟨(ht.unborn cid hcid).1, (ht.unborn cid hcid).1⟩, ht.valid, ht.met⟩

end
end Core
end CoreSplitter
