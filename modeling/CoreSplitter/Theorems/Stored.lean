import CoreSplitter.Theorems.Sent

/-! What the core stores of the radio's frames: its messages, and the blobs that it keeps to answer with. -/

namespace CoreSplitter
open Bytes

namespace Core

/-- Every stored message satisfies `M`, and every blob `B`. -/
structure Holds (M B : Bytes → Prop) (c : Core) : Prop where
  messages : ∀ m ∈ c.db.messages, ∀ frame, m.frame = some frame → M frame
  blobs : ∀ blob, c.IsBlob blob → B blob
  kv : ∀ key blob, key ≠ .contactsSyncedAt → c.db.kvGet key = some blob → B blob

/-- What a turn draws on satisfies `M` and `B`. -/
structure Supplies (S : Scope) (M B : Bytes → Prop) : Prop where
  message : ∀ frame code, S.frame frame → frame.head? = some code → Scope.fansOut code → M frame
  blob : ∀ frame code, S.frame frame → frame.head? = some code → code = 0x05 ∨ code = 0x0C ∨ code = 0x0D → B frame
  echo : ∀ (c : Core) f echo, S.Accepts f → c.EchoOf f echo → M echo.frame

section
variable {M B : Bytes → Prop} {S : Scope} {c c₁ : Core} {env : Env}

theorem Holds.of_eq (h : Holds M B c) (hmessages : c₁.db.messages = c.db.messages) (hkv : c₁.db.kv = c.db.kv)
    (hself : c₁.selfInfoRaw = c.selfInfoRaw) (hdevice : c₁.deviceInfoRaw = c.deviceInfoRaw)
    (hbattery : c₁.batteryInfoRaw = c.batteryInfoRaw) : Holds M B c₁ where
  messages := hmessages ▸ h.messages
  blobs blob hblob := h.blobs blob (by rwa [IsBlob, hself, hdevice, hbattery] at hblob)
  kv key blob hkey hblob := h.kv key blob hkey (by rwa [NodeState.kvGet, hkv] at hblob)

theorem Holds.talk (h : Holds M B c) (ht : Talks c c₁) : Holds M B c₁ := by
  obtain ⟨-, _, _, rfl⟩ := ht
  exact h.of_eq rfl rfl rfl rfl rfl

theorem Holds.store {msg : NewMessage} (h : Holds M B c) (hM : M msg.frame) : Holds M B (c.storeMessage env msg) := by
  cases hok : env.dbOk .insertMessage with
  | false => rwa [storeMessage_of_failed hok]
  | true =>
    obtain ⟨rows, hform, -⟩ := storeMessage_form c msg hok
    rw [hform]
    refine ⟨fun m hm frame hframe => ?_, h.blobs, h.kv⟩
    rcases List.mem_append.mp hm with hm | hm
    · exact h.messages m hm frame hframe
    · obtain rfl := List.mem_singleton.mp hm
      exact Option.some.inj hframe ▸ hM

theorem Holds.kvSet {key : KvKey} {blob : Bytes} (h : Holds M B c) (hB : B blob) :
    Holds M B (c.kvSet env key blob) := by
  unfold Core.kvSet
  split
  · refine ⟨h.messages, h.blobs, fun key' blob' hkey hblob => ?_⟩
    simp only [NodeState.kvGet, NodeState.kvSet, Table.lookup_insert_eq] at hblob
    split at hblob
    · exact Option.some.inj hblob ▸ hB
    · exact h.kv key' blob' hkey hblob
  · exact h

theorem Holds.identity {blob : Bytes} (h : Holds M B c) (hs : c.extractRadioIdentity blob = .ok c₁) : Holds M B c₁ := by
  obtain ⟨d, -, hs⟩ := Except.of_bind_eq_ok hs
  have hkey : Holds M B (if h : 36 ≤ blob.length then
      { c with radioPubkey := some ⟨slice blob 4 36 ⟨by omega, h⟩, by simp⟩ } else c) := by
    split
    · exact h.of_eq rfl rfl rfl rfl rfl
    · exact h
  split at hs <;> cases hs
  · exact hkey.of_eq rfl rfl rfl rfl rfl
  · exact hkey

theorem Holds.channels {blob : Bytes} (h : Holds M B c) (hs : c.extractMaxChannels blob = .ok c₁) : Holds M B c₁ := by
  obtain ⟨d, -, hs⟩ := Except.of_bind_eq_ok hs
  split at hs <;> cases hs
  · split
    · exact h.of_eq rfl rfl rfl rfl rfl
    · exact h
  · exact h

theorem Holds.setSelf {blob : Bytes} (h : Holds M B c) (hB : B blob) :
    Holds M B { c with selfInfoRaw := some blob } where
  messages := h.messages
  blobs blob' hblob := by
    rcases hblob with hself | hrest
    · exact Option.some.inj hself ▸ hB
    · exact h.blobs blob' (Or.inr hrest)
  kv := h.kv

theorem Holds.setDevice {blob : Bytes} (h : Holds M B c) (hB : B blob) :
    Holds M B { c with deviceInfoRaw := some blob } where
  messages := h.messages
  blobs blob' hblob := by
    rcases hblob with hself | hdevice | hbattery
    · exact h.blobs blob' (Or.inl hself)
    · exact Option.some.inj hdevice ▸ hB
    · exact h.blobs blob' (Or.inr (Or.inr hbattery))
  kv := h.kv

theorem Holds.setBattery {blob : Bytes} (h : Holds M B c) (hB : B blob) :
    Holds M B { c with batteryInfoRaw := some blob } where
  messages := h.messages
  blobs blob' hblob := by
    rcases hblob with hself | hdevice | hbattery
    · exact h.blobs blob' (Or.inl hself)
    · exact h.blobs blob' (Or.inr (Or.inl hdevice))
    · exact Option.some.inj hbattery ▸ hB
  kv := h.kv

theorem Holds.cache {code : UInt8} {frame : Bytes} (h : Holds M B c) (hs : c.cacheResponse env code frame = .ok c₁)
    (hM : Scope.fansOut code → M frame) (hB : code = 0x05 ∨ code = 0x0C ∨ code = 0x0D → B frame) : Holds M B c₁ := by
  unfold cacheResponse at hs
  split at hs
  · cases hs
    split
    · unfold cacheContact
      split
      · exact h.of_eq rfl rfl rfl rfl rfl
      · exact h
    · exact h
  · obtain ⟨c₂, hc₂, hs⟩ := Except.of_bind_eq_ok hs
    cases hs
    have hframe := hB (Or.inl rfl)
    exact ((h.kvSet hframe).identity hc₂).setSelf hframe
  · cases hs
    have hframe := hB (Or.inr (Or.inl rfl))
    exact (h.kvSet hframe).setBattery hframe
  · obtain ⟨c₂, hc₂, hs⟩ := Except.of_bind_eq_ok hs
    cases hs
    have hframe := hB (Or.inr (Or.inr rfl))
    exact ((h.kvSet hframe).channels hc₂).setDevice hframe
  · obtain ⟨d, -, hs⟩ := Except.of_bind_eq_ok hs
    split at hs <;> cases hs
    · exact h.store (hM (Or.inl rfl))
    · exact h
  · obtain ⟨d, -, hs⟩ := Except.of_bind_eq_ok hs
    split at hs <;> cases hs
    · exact h.store (hM (Or.inr (Or.inl rfl)))
    · exact h
  · cases hs
    split
    · exact h.store (hM (Or.inr (Or.inr (Or.inl rfl))))
    · exact h
  · cases hs
    split
    · exact h.store (hM (Or.inr (Or.inr (Or.inr rfl))))
    · exact h
  · cases hs
    split
    · unfold cacheChannel
      split
      · exact h.of_eq rfl rfl rfl rfl rfl
      · exact h
    · exact h
  · cases hs
    exact h

theorem Holds.clear (h : Holds M B c) :
    Holds M B { c with selfInfoRaw := none, deviceInfoRaw := none, batteryInfoRaw := none } :=
  ⟨h.messages, fun blob hblob => by simp [IsBlob] at hblob, h.kv⟩

theorem Holds.start {q : Queued} (h : Holds M B c) : Holds M B (c.startWith env q) := by
  obtain ⟨db, self, device, battery, hform, hdb, hblobs⟩ := startWith_form c env q
  rw [hform]
  have htables : db.messages = c.db.messages ∧ db.kv = c.db.kv := by
    rcases hdb with rfl | ⟨_, rfl⟩ | ⟨_, rfl⟩ <;> exact ⟨rfl, rfl⟩
  rcases hblobs with ⟨rfl, rfl, rfl⟩ | ⟨rfl, rfl, rfl⟩
  · exact h.of_eq htables.1 htables.2 rfl rfl rfl
  · exact h.clear.of_eq htables.1 htables.2 rfl rfl rfl

theorem Holds.push {clientId : Option ClientId} {p : Command} (h : Holds M B c) : Holds M B (c.pushBack clientId p) :=
  h.of_eq rfl rfl rfl rfl rfl

theorem Holds.accept {f : InFlight} (h : Holds M B c) : Holds M B (c.afterAccepted env f) := by
  unfold afterAccepted
  dsimp only
  split
  · split
    · split
      · refine ⟨h.messages, h.blobs, fun key blob hkey hblob => h.kv key blob hkey ?_⟩
        simpa only [NodeState.kvGet, NodeState.setContactsSyncedAt, NodeState.kvSet,
          Table.lookup_insert_eq, if_neg hkey] using hblob
      · exact h
    · exact h
  · split
    · exact h.push
    · exact h
  · split
    · exact h.push
    · exact h
  · exact h.push
  · exact h.of_eq rfl rfl rfl rfl rfl
  · exact h

theorem Holds.replayPending {cid : ClientId} {s : Session} {pending : List MessageId} (h : Holds M B c) :
    Holds M B (c.replayPending env cid s pending).2 := by
  induction pending generalizing c with
  | nil => exact h
  | cons id rest ih =>
    have hpop : Holds M B (c.setPending cid s rest) := h.of_eq rfl rfl rfl rfl rfl
    simp only [Core.replayPending]
    split
    · exact ih hpop
    · rename_i frame _
      have hsent : Holds M B ((c.setPending cid s rest).sendToClient cid frame (.replay id)) :=
        hpop.talk sendToClient_talks
      split
      · exact hsent.of_eq rfl rfl rfl rfl rfl
      · exact hsent

theorem Holds.replay {cid : ClientId} (h : Holds M B c) : Holds M B (c.replayNextMissed env cid).2 := by
  unfold replayNextMissed
  split
  · exact h
  · dsimp only
    split
    · exact h.replayPending.of_eq rfl rfl rfl rfl rfl
    · exact h.replayPending

/-- A call of `maintain` leaves out messages, and clients that were not connected for `days`, at most. -/
structure Purged (now : Int) (days : Nat) (db db' : NodeState) : Prop where
  messages : db'.messages.Sublist db.messages
  seq : db'.messageSeq = db.messageSeq
  kv : db'.kv = db.kv
  clients : ∀ who, db'.clients.lookup who = db.clients.lookup who ∨ 0 < days ∧ db'.clients.lookup who = none ∧
    ∃ row, db.clients.lookup who = some row ∧ row.lastConnectedAt < NodeState.cutoff now days

variable {now : Int} {days : Nat}

theorem Purged.refl {db : NodeState} : Purged now days db db := ⟨List.Sublist.refl _, rfl, rfl, fun _ => Or.inl rfl⟩

theorem Purged.trans {db db' db'' : NodeState} (h₁ : Purged now days db db') (h₂ : Purged now days db' db'') :
    Purged now days db db'' := by
  refine ⟨h₂.messages.trans h₁.messages, h₂.seq.trans h₁.seq, h₂.kv.trans h₁.kv, fun who => ?_⟩
  rcases h₂.clients who with h | ⟨hdays, hnone, row, hrow, hold⟩
  · rw [h]
    exact h₁.clients who
  · refine Or.inr ⟨hdays, hnone, row, ?_, hold⟩
    rcases h₁.clients who with h | ⟨-, hgone, -⟩
    · exact h ▸ hrow
    · rw [hgone] at hrow
      cases hrow

theorem purge_purged {call : DbCall} {f : NodeState → NodeState} {s : NodeState × Bool}
    (hf : ∀ db, Purged now days db (f db)) : Purged now days s.1 (purge env call f s).1 := by
  unfold purge
  split
  · exact hf s.1
  · exact .refl

theorem Purged.stage {db : NodeState} {p : Prop} [Decidable p] {s : NodeState × Bool}
    {g : NodeState × Bool → NodeState × Bool} (h : Purged now days db s.1) (hg : p → ∀ s, Purged now days s.1 (g s).1) :
    Purged now days db (if p then g s else s).1 := by
  split
  · exact h.trans (hg ‹_› s)
  · exact h

/-- The stage of the maintenance that purges contacts. -/
def purgeStale (c : Core) (env : Env) (s : NodeState × Bool) : NodeState × Bool :=
  match (purge env .readSyncedAt id s).1.contactsSyncedAt with
  | some syncedAt => purge env .purgeContacts
      (·.purgeContacts (NodeState.contactThreshold env.unix c.config.retention.contactsDays syncedAt))
      (purge env .readSyncedAt id s)
  | none => purge env .readSyncedAt id s

theorem maintain_purged (c : Core) (env : Env) :
    Purged env.unix c.config.retention.clientsDays c.db (c.maintain env).db := by
  have hmessages (n : Nat) (db : NodeState) :
      Purged env.unix c.config.retention.clientsDays db (db.purgeMessages env.unix n) :=
    ⟨List.filter_sublist, rfl, rfl, fun _ => Or.inl rfl⟩
  have hclients (hdays : 0 < c.config.retention.clientsDays) (db : NodeState) :
      Purged env.unix c.config.retention.clientsDays db
      (db.purgeClients env.unix c.config.retention.clientsDays) := by
    refine ⟨List.Sublist.refl _, rfl, rfl, fun who => ?_⟩
    rw [NodeState.purgeClients, Table.lookup_retain]
    cases hrow : db.clients.lookup who with
    | none => exact Or.inl rfl
    | some row =>
      by_cases hold : row.lastConnectedAt < NodeState.cutoff env.unix c.config.retention.clientsDays
      · exact Or.inr ⟨hdays, by simp [Option.filter, hold], row, rfl, hold⟩
      · exact Or.inl (by simp [Option.filter, hold])
  have hcontacts (s : NodeState × Bool) :
      Purged env.unix c.config.retention.clientsDays s.1 (c.purgeStale env s).1 := by
    have hread : Purged env.unix c.config.retention.clientsDays s.1 (purge env .readSyncedAt id s).1 :=
      purge_purged fun _ => .refl
    unfold purgeStale
    split
    · exact hread.trans (purge_purged fun _ => ⟨List.Sublist.refl _, rfl, rfl, fun _ => Or.inl rfl⟩)
    · exact hread
  refine Purged.stage (g := purge env .purgeClients (·.purgeClients env.unix c.config.retention.clientsDays)) ?_
    fun hdays s => purge_purged (hclients hdays)
  refine Purged.stage (g := c.purgeStale env) ?_ fun _ => hcontacts
  refine Purged.stage (g := purge env .purgeRawRx (·.purgeRawRx env.unix c.config.retention.rawRxDays)) ?_
    fun _ s => purge_purged fun _ => ⟨List.Sublist.refl _, rfl, rfl, fun _ => Or.inl rfl⟩
  exact Purged.stage (g := purge env .purgeMessages (·.purgeMessages env.unix c.config.retention.messagesDays)) .refl
    fun _ s => purge_purged (hmessages _)

theorem Holds.maintain (h : Holds M B c) : Holds M B (c.maintain env) := by
  have hpurged := maintain_purged c env
  refine ⟨fun m hm => h.messages m (hpurged.messages.subset hm), h.blobs,
    fun key blob hkey hblob => h.kv key blob hkey ?_⟩
  rwa [NodeState.kvGet, hpurged.kv] at hblob

theorem Holds.restored {key : KvKey} {blob : Option Bytes} {b : Bytes} (h : Holds M B c)
    (hkey : key ≠ .contactsSyncedAt) (hb : c.restored env key blob = some b) : B b := by
  unfold Core.restored at hb
  split at hb
  · cases hb
  · split at hb
    · exact h.kv key b hkey hb
    · cases hb

theorem Holds.restore (h : Holds M B c) (hs : c.restoreBlobs env = .ok c₁) : Holds M B c₁ := by
  obtain ⟨c₂, hc₂, hs⟩ := Except.of_bind_eq_ok hs
  obtain ⟨c₃, hc₃, hs⟩ := Except.of_bind_eq_ok hs
  cases hs
  have h₂ : Holds M B c₂ := by
    unfold restoreSelfInfo at hc₂
    split at hc₂
    · rename_i blob hblob
      obtain ⟨c', hc', hs⟩ := Except.of_bind_eq_ok hc₂
      cases hs
      exact (h.identity hc').setSelf (h.restored (by decide) hblob)
    · cases hc₂
      exact h
  have h₃ : Holds M B c₃ := by
    unfold restoreDeviceInfo at hc₃
    split at hc₃
    · rename_i blob hblob
      obtain ⟨c', hc', hs⟩ := Except.of_bind_eq_ok hc₃
      cases hs
      exact (h₂.channels hc').setDevice (h₂.restored (by decide) hblob)
    · cases hc₃
      exact h₂
  unfold restoreBatteryInfo
  split
  · rename_i blob hblob
    exact h₃.setBattery (h₃.restored (by decide) hblob)
  · exact h₃

/-- No write stores anything but what the turn draws on. -/
theorem Write.holds (hw : Write S c c₁) (hS : Supplies S M B) (h : Holds M B c) : Holds M B c₁ := by
  cases hw with
  | queue hmemory =>
    simp only [memory, Prod.mk.injEq] at hmemory
    obtain ⟨-, hdb, hself, hdevice, hbattery, -⟩ := hmemory
    exact h.of_eq (by rw [hdb]) (by rw [hdb]) hself hdevice hbattery
  | lock => exact h.talk lockClients_talks
  | start => exact h.start
  | init | broadcast => exact h.talk emit_talks
  | error | reply | ack => exact h.talk sendToClient_talks
  | fanout => exact h.talk broadcastToOthers_talks
  | notify => exact h.talk notifyMissed_talks
  | register =>
    unfold registerSession
    dsimp only
    split <;> exact h.of_eq rfl rfl rfl rfl rfl
  | version =>
    unfold recordVersion
    split
    · split
      · exact h.of_eq rfl rfl rfl rfl rfl
      · exact h
    · exact h
  | replay => exact h.replay
  | cached => exact h.talk tryServeFromCache_talks
  | cache _ hframe hcode hs => exact h.cache hs (hS.message _ _ hframe hcode) (hS.blob _ _ hframe hcode)
  | raw =>
    unfold recordRaw
    split
    · exact h.of_eq rfl rfl rfl rfl rfl
    · exact h
  | accept => exact h.accept
  | @echo env f cid echo _ haccepts _ hecho =>
    have hframe : M echo.frame := hS.echo c f echo haccepts hecho
    exact (h.talk broadcastToOthers_talks).store hframe
  | maintain => exact h.maintain
  | restore _ _ hs => exact h.restore hs

/-! ### The radio's identity -/

/-- What the echoes are made with. -/
def naming (c : Core) := (c.radioPubkey, c.radioName)

/-- What the core serves as the radio's own. -/
def infos (c : Core) := (c.selfInfoRaw, c.deviceInfoRaw)

/-- All that the core knows of the radio itself. -/
def profile (c : Core) := (c.naming, c.infos)

theorem Talks.profile (h : Talks c c₁) : c₁.profile = c.profile := by
  obtain ⟨-, _, _, rfl⟩ := h
  rfl

theorem Talks.naming (h : Talks c c₁) : c₁.naming = c.naming := congrArg Prod.fst h.profile

theorem storeMessage_profile {msg : NewMessage} : (c.storeMessage env msg).profile = c.profile := by
  cases hok : env.dbOk .insertMessage with
  | false => rw [storeMessage_of_failed hok]
  | true =>
    obtain ⟨rows, hform, -⟩ := storeMessage_form c msg hok
    rw [hform]
    rfl

theorem kvSet_profile {key : KvKey} {value : Bytes} : (c.kvSet env key value).profile = c.profile := by
  unfold Core.kvSet
  split <;> rfl

theorem recordRaw_profile {code : UInt8} {frame : Bytes} : (c.recordRaw env code frame).profile = c.profile := by
  unfold recordRaw
  split <;> rfl

theorem extractMaxChannels_profile {blob : Bytes} (h : c.extractMaxChannels blob = .ok c₁) :
    c₁.profile = c.profile := by
  obtain ⟨d, -, h⟩ := Except.of_bind_eq_ok h
  split at h <;> cases h
  · split <;> rfl
  · rfl

theorem extractRadioIdentity_infos {blob : Bytes} (h : c.extractRadioIdentity blob = .ok c₁) : c₁.infos = c.infos := by
  obtain ⟨d, -, h⟩ := Except.of_bind_eq_ok h
  split at h <;> cases h <;> split <;> rfl

/-- A frame that is not the radio's own SELF_INFO or DEVICE_INFO says nothing of the radio. -/
theorem cacheResponse_profile {code : UInt8} {frame : Bytes} (h : c.cacheResponse env code frame = .ok c₁)
    (hself : code ≠ 0x05) (hdevice : code ≠ 0x0D) : c₁.profile = c.profile := by
  unfold cacheResponse at h
  split at h
  · cases h
    split
    · unfold cacheContact
      split <;> rfl
    · rfl
  · exact absurd rfl hself
  · cases h
    exact kvSet_profile
  · exact absurd rfl hdevice
  · obtain ⟨d, -, h⟩ := Except.of_bind_eq_ok h
    split at h <;> cases h
    · exact storeMessage_profile
    · rfl
  · obtain ⟨d, -, h⟩ := Except.of_bind_eq_ok h
    split at h <;> cases h
    · exact storeMessage_profile
    · rfl
  · cases h
    split
    · exact storeMessage_profile
    · rfl
  · cases h
    split
    · exact storeMessage_profile
    · rfl
  · cases h
    split
    · unfold cacheChannel
      split <;> rfl
    · rfl
  · cases h
    rfl

theorem cacheResponse_self {frame : Bytes} (h : c.cacheResponse env 0x05 frame = .ok c₁) :
    c₁.infos = (some frame, c.deviceInfoRaw) := by
  obtain ⟨c₂, hc₂, h⟩ := Except.of_bind_eq_ok h
  cases h
  have hkv : (c.kvSet env .selfInfoRaw frame).infos = c.infos := congrArg Prod.snd kvSet_profile
  exact congrArg (some frame, ·) (congrArg Prod.snd ((extractRadioIdentity_infos hc₂).trans hkv))

theorem cacheResponse_device {frame : Bytes} (h : c.cacheResponse env 0x0D frame = .ok c₁) :
    c₁.naming = c.naming ∧ c₁.infos = (c.selfInfoRaw, some frame) := by
  obtain ⟨c₂, hc₂, h⟩ := Except.of_bind_eq_ok h
  cases h
  have hprofile : c₂.profile = c.profile := (extractMaxChannels_profile hc₂).trans kvSet_profile
  exact ⟨congrArg Prod.fst hprofile, congrArg (·, some frame) (congrArg (·.2.1) hprofile)⟩

theorem cacheResponse_naming {code : UInt8} {frame : Bytes} (h : c.cacheResponse env code frame = .ok c₁)
    (hcode : code ≠ 0x05) : c₁.naming = c.naming := by
  by_cases hdevice : code = 0x0D
  · subst hdevice
    exact (cacheResponse_device h).1
  · exact congrArg Prod.fst (cacheResponse_profile h hcode hdevice)

theorem afterAccepted_naming {f : InFlight} (hcode : f.cmdCode ≠ 0x08) : (c.afterAccepted env f).naming = c.naming := by
  unfold afterAccepted
  dsimp only
  split
  · split
    · split <;> rfl
    · rfl
  · split <;> rfl
  · split <;> rfl
  · rfl
  · rename_i h
    exact absurd h hcode
  · rfl

theorem afterAccepted_infos {f : InFlight} : (c.afterAccepted env f).infos = c.infos := by
  unfold afterAccepted
  dsimp only
  split
  · split
    · split <;> rfl
    · rfl
  · split <;> rfl
  · split <;> rfl
  · rfl
  · rfl
  · rfl

theorem replayPending_profile {cid : ClientId} {s : Session} {pending : List MessageId} :
    (c.replayPending env cid s pending).2.profile = c.profile := by
  induction pending generalizing c with
  | nil => rfl
  | cons id rest ih =>
    have hpop : (c.setPending cid s rest).profile = c.profile := rfl
    simp only [Core.replayPending]
    split
    · exact ih.trans hpop
    · rename_i frame _
      have hsent : ((c.setPending cid s rest).sendToClient cid frame (.replay id)).profile =
          (c.setPending cid s rest).profile :=
        sendToClient_talks.profile
      split
      · exact hsent.trans hpop
      · exact hsent.trans hpop

/-- What a write changes of what the core knows of the radio. -/
inductive Reprofiled (S : Scope) (c c₁ : Core) : Prop
  | same (h : c₁.profile = c.profile)
  | start {env : Env} {q : Queued} (h : c₁ = c.startWith env q)
  | cache {env : Env} {code : UInt8} {frame : Bytes} (hframe : S.frame frame) (hcode : frame.head? = some code)
      (h : c.cacheResponse env code frame = .ok c₁)
  | accept {env : Env} {f : InFlight} (h : S.Accepts f) (heq : c₁ = c.afterAccepted env f)
  | restore (h : S.startup)

theorem Write.reprofiled (hw : Write S c c₁) : Reprofiled S c c₁ := by
  cases hw with
  | queue hmemory =>
    simp only [memory, Prod.mk.injEq] at hmemory
    obtain ⟨-, -, hself, hdevice, -, hkey, hname, -⟩ := hmemory
    refine .same ?_
    rw [profile, Core.naming, infos, hself, hdevice, hkey, hname]
    rfl
  | lock => exact .same lockClients_talks.profile
  | start => exact .start rfl
  | init | broadcast => exact .same emit_talks.profile
  | error | reply | ack => exact .same sendToClient_talks.profile
  | fanout => exact .same broadcastToOthers_talks.profile
  | notify => exact .same notifyMissed_talks.profile
  | register =>
    refine .same ?_
    unfold registerSession
    dsimp only
    split <;> rfl
  | version =>
    refine .same ?_
    unfold recordVersion
    split
    · split <;> rfl
    · rfl
  | replay =>
    refine .same ?_
    unfold replayNextMissed
    split
    · rfl
    · dsimp only
      split
      · exact replayPending_profile
      · exact replayPending_profile
  | cached => exact .same tryServeFromCache_talks.profile
  | cache _ hframe hcode hs => exact .cache hframe hcode hs
  | raw => exact .same recordRaw_profile
  | accept _ h => exact .accept h rfl
  | echo => exact .same (storeMessage_profile.trans broadcastToOthers_talks.profile)
  | maintain => exact .same rfl
  | restore h => exact .restore h

/-- The identity of the radio changes when it says so, when a new name is accepted, and at startup. -/
theorem Write.naming (hw : Write S c c₁) (hself : ∀ frame, S.frame frame → frame.head? ≠ some 0x05)
    (hname : ∀ f, S.Accepts f → f.cmdCode ≠ 0x08) (hstartup : ¬S.startup) : c₁.naming = c.naming := by
  cases hw.reprofiled with
  | same h => exact congrArg Prod.fst h
  | start h =>
    obtain ⟨db, self, device, battery, hform, -⟩ := startWith_form c _ _
    rw [h, hform]
    rfl
  | cache hframe hcode hs => exact cacheResponse_naming hs fun h => hself _ hframe (h ▸ hcode)
  | accept h heq => exact heq ▸ afterAccepted_naming (hname _ h)
  | restore h => exact absurd h hstartup

end
end Core
end CoreSplitter
