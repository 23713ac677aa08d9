import CoreSplitter.Theorems.Service

/-! What the proxy remembers of the radio from one start to the next: the last SELF_INFO, DEVICE_INFO and BATTERY
    that it heard stand in the database, and are restored where the radio does not tell. -/

namespace CoreSplitter
open Bytes

namespace KvKey

/-- The code of the frame that is kept under the key. -/
def code : KvKey → Option UInt8
  | selfInfoRaw => some 0x05
  | deviceInfoRaw => some 0x0D
  | batteryInfoRaw => some 0x0C
  | contactsSyncedAt => none

/-- What the core serves of it. -/
def blob (c : Core) : KvKey → Option Bytes
  | selfInfoRaw => c.selfInfoRaw
  | deviceInfoRaw => c.deviceInfoRaw
  | batteryInfoRaw => c.batteryInfoRaw
  | contactsSyncedAt => none

end KvKey

namespace Core

/-- What the core serves of the radio itself. -/
def blobs (c : Core) := (c.selfInfoRaw, c.deviceInfoRaw, c.batteryInfoRaw)

/-- Such a thing stands under the key, and is served if anything is. -/
structure Remembers (k : KvKey) (P : Option Bytes → Prop) (c : Core) : Prop where
  kept : P (c.db.kvGet k)
  served : k.blob c = none ∨ P (k.blob c)

section
variable {k k' : KvKey} {P : Option Bytes → Prop} {code : UInt8} {frame payload : Bytes} {S : Scope} {c c₁ : Core}
  {env : Env} {e : Event} {frontend : List (List FrontendOp)} {q : Queued} {f : InFlight} {cid : ClientId}

theorem blob_of_blobs (h : c₁.blobs = c.blobs) : k.blob c₁ = k.blob c := by
  cases k with
  | selfInfoRaw => exact congrArg (·.1) h
  | deviceInfoRaw => exact congrArg (·.2.1) h
  | batteryInfoRaw => exact congrArg (·.2.2) h
  | contactsSyncedAt => rfl

theorem Remembers.of_eq (h : Remembers k P c) (hkv : c₁.db.kv = c.db.kv) (hblobs : c₁.blobs = c.blobs) :
    Remembers k P c₁ := by
  refine ⟨?_, ?_⟩
  · rw [NodeState.kvGet, hkv]
    exact h.kept
  · rw [blob_of_blobs hblobs]
    exact h.served

/-! ### What is heard -/

theorem extractRadioIdentity_same (h : c.extractRadioIdentity payload = .ok c₁) :
    c₁.db = c.db ∧ c₁.blobs = c.blobs := by
  refine ⟨extractRadioIdentity_db h, ?_⟩
  obtain ⟨d, -, h⟩ := Except.of_bind_eq_ok h
  split at h <;> cases h <;> split <;> rfl

theorem extractMaxChannels_same (h : c.extractMaxChannels payload = .ok c₁) : c₁.db = c.db ∧ c₁.blobs = c.blobs := by
  refine ⟨extractMaxChannels_db h, ?_⟩
  obtain ⟨d, -, h⟩ := Except.of_bind_eq_ok h
  split at h <;> cases h
  · split <;> rfl
  · rfl

theorem kvSet_blobs : (c.kvSet env k payload).blobs = c.blobs := by
  unfold Core.kvSet
  split <;> rfl

theorem storeMessage_same {msg : NewMessage} :
    (c.storeMessage env msg).db.kv = c.db.kv ∧ (c.storeMessage env msg).blobs = c.blobs := by
  cases hok : env.dbOk .insertMessage with
  | false =>
    rw [storeMessage_of_failed hok]
    exact ⟨rfl, rfl⟩
  | true =>
    obtain ⟨rows, hform, -⟩ := storeMessage_form c msg hok
    rw [hform]
    exact ⟨rfl, rfl⟩

/-- A frame of the key's code is kept under it, if the database takes it, and served from then on. -/
theorem cacheResponse_heard (hk : k.code = some code) (h : c.cacheResponse env code payload = .ok c₁) :
    c₁.db.kv = (c.kvSet env k payload).db.kv ∧ ∀ k', k'.blob c₁ = if k' = k then some payload else k'.blob c := by
  have hbefore (k' : KvKey) : k'.blob (c.kvSet env k payload) = k'.blob c := blob_of_blobs kvSet_blobs
  cases k with
  | selfInfoRaw =>
    cases hk
    obtain ⟨c₂, hc₂, h⟩ := Except.of_bind_eq_ok h
    cases h
    obtain ⟨hdb, hblobs⟩ := extractRadioIdentity_same hc₂
    refine ⟨congrArg (·.kv) hdb, fun k' => ?_⟩
    rw [← hbefore k', ← blob_of_blobs hblobs]
    cases k' <;> rfl
  | deviceInfoRaw =>
    cases hk
    obtain ⟨c₂, hc₂, h⟩ := Except.of_bind_eq_ok h
    cases h
    obtain ⟨hdb, hblobs⟩ := extractMaxChannels_same hc₂
    refine ⟨congrArg (·.kv) hdb, fun k' => ?_⟩
    rw [← hbefore k', ← blob_of_blobs hblobs]
    cases k' <;> rfl
  | batteryInfoRaw =>
    cases hk
    cases h
    refine ⟨rfl, fun k' => ?_⟩
    rw [← hbefore k']
    cases k' <;> rfl
  | contactsSyncedAt => cases hk

/-- Other frames leave it alone. -/
theorem cacheResponse_unheard (hno : ∀ k : KvKey, k.code ≠ some code) (h : c.cacheResponse env code payload = .ok c₁) :
    c₁.db.kv = c.db.kv ∧ c₁.blobs = c.blobs := by
  unfold cacheResponse at h
  split at h
  case h_2 => exact absurd rfl (hno .selfInfoRaw)
  case h_3 => exact absurd rfl (hno .batteryInfoRaw)
  case h_4 => exact absurd rfl (hno .deviceInfoRaw)
  case h_1 =>
    cases h
    split
    · unfold cacheContact
      split <;> exact ⟨rfl, rfl⟩
    · exact ⟨rfl, rfl⟩
  case h_9 =>
    cases h
    split
    · unfold cacheChannel
      split <;> exact ⟨rfl, rfl⟩
    · exact ⟨rfl, rfl⟩
  case h_5 | h_6 =>
    obtain ⟨d, -, h⟩ := Except.of_bind_eq_ok h
    split at h <;> cases h
    · exact storeMessage_same
    · exact ⟨rfl, rfl⟩
  case h_7 | h_8 =>
    cases h
    split
    · exact storeMessage_same
    · exact ⟨rfl, rfl⟩
  case h_10 =>
    cases h
    exact ⟨rfl, rfl⟩

theorem kvGet_kvSet {k' : KvKey} : (c.kvSet env k payload).db.kvGet k' = if k' = k ∧ env.dbOk (.kvSet k) = true
    then some payload else c.db.kvGet k' := by
  unfold Core.kvSet
  split
  · rename_i hok
    simp [NodeState.kvGet, NodeState.kvSet, Table.lookup_insert_eq, hok]
  · rename_i hno
    simp [hno]

theorem Remembers.cache (h : Remembers k P c) (hs : c.cacheResponse env code payload = .ok c₁)
    (hheard : k.code = some code → P (some payload)) : Remembers k P c₁ := by
  by_cases hkey : ∃ k' : KvKey, k'.code = some code
  · obtain ⟨k', hk'⟩ := hkey
    obtain ⟨hkv, hblob⟩ := cacheResponse_heard hk' hs
    have hkept : c₁.db.kvGet k = if k = k' ∧ env.dbOk (.kvSet k') = true then some payload else c.db.kvGet k := by
      rw [NodeState.kvGet, hkv, ← NodeState.kvGet, kvGet_kvSet]
    refine ⟨?_, ?_⟩
    · rw [hkept]
      split
      · rename_i heq
        exact hheard (heq.1 ▸ hk')
      · exact h.kept
    · rw [hblob]
      split
      · rename_i heq
        exact Or.inr (hheard (heq ▸ hk'))
      · exact h.served
  · obtain ⟨hkv, hblobs⟩ := cacheResponse_unheard (fun k' hk' => hkey ⟨k', hk'⟩) hs
    exact h.of_eq hkv hblobs

/-! ### What is written -/

theorem Remembers.talk (h : Remembers k P c) (ht : Talks c c₁) : Remembers k P c₁ := by
  obtain ⟨-, _, _, rfl⟩ := ht
  exact h.of_eq rfl rfl

theorem Remembers.store {msg : NewMessage} (h : Remembers k P c) : Remembers k P (c.storeMessage env msg) :=
  h.of_eq storeMessage_same.1 storeMessage_same.2

/-- A request that is sent may take what is served, and nothing that is kept. -/
theorem Remembers.start (h : Remembers k P c) : Remembers k P (c.startWith env q) := by
  obtain ⟨db, self, device, battery, hform, hdb, hblobs⟩ := startWith_form c env q
  rw [hform]
  have hkv : db.kv = c.db.kv := by
    rcases hdb with rfl | ⟨_, rfl⟩ | ⟨_, rfl⟩ <;> rfl
  rcases hblobs with ⟨rfl, rfl, rfl⟩ | ⟨rfl, rfl, rfl⟩
  · exact h.of_eq hkv rfl
  · refine ⟨?_, Or.inl (by cases k <;> rfl)⟩
    rw [NodeState.kvGet, hkv]
    exact h.kept

theorem Remembers.accept (h : Remembers k P c) (hk : k.code ≠ none) : Remembers k P (c.afterAccepted env f) := by
  unfold afterAccepted
  dsimp only
  split
  · split
    · split
      · have hother : k ≠ .contactsSyncedAt := fun heq => hk (heq ▸ rfl)
        refine ⟨?_, ?_⟩
        · simpa only [NodeState.kvGet, NodeState.setContactsSyncedAt, NodeState.kvSet, Table.lookup_insert_eq,
            if_neg hother] using h.kept
        · rw [blob_of_blobs rfl]
          exact h.served
      · exact h
    · exact h
  · split
    · exact h.of_eq rfl rfl
    · exact h
  · split
    · exact h.of_eq rfl rfl
    · exact h
  · exact h.of_eq rfl rfl
  · exact h.of_eq rfl rfl
  · exact h

theorem Remembers.replayPending {s : Session} {pending : List MessageId} (h : Remembers k P c) :
    Remembers k P (c.replayPending env cid s pending).2 := by
  induction pending generalizing c with
  | nil => exact h
  | cons id rest ih =>
    have hpop : Remembers k P (c.setPending cid s rest) := h.of_eq rfl rfl
    simp only [Core.replayPending]
    split
    · exact ih hpop
    · rename_i sent _
      have hsent : Remembers k P ((c.setPending cid s rest).sendToClient cid sent (.replay id)) :=
        hpop.talk sendToClient_talks
      split
      · exact hsent.of_eq rfl rfl
      · exact hsent

theorem Remembers.replay (h : Remembers k P c) : Remembers k P (c.replayNextMissed env cid).2 := by
  unfold replayNextMissed
  split
  · exact h
  · dsimp only
    split
    · exact h.replayPending.of_eq rfl rfl
    · exact h.replayPending

/-! ### What is restored -/

/-- What is kept under the key is served, unless something is. -/
structure Restores (k : KvKey) (env : Env) (c c₁ : Core) : Prop where
  db : c₁.db = c.db
  blob : ∀ k', k'.blob c₁ = if k' = k then (k.blob c).or (if env.dbOk (.kvGet k) then c.db.kvGet k else none)
    else k'.blob c

theorem Restores.of_same (hdb : c₁.db = c.db) (hblobs : c₁.blobs = c.blobs)
    (hsame : (k.blob c).or (if env.dbOk (.kvGet k) then c.db.kvGet k else none) = k.blob c) : Restores k env c c₁ := by
  refine ⟨hdb, fun k' => ?_⟩
  rw [blob_of_blobs hblobs, hsame]
  split
  · rename_i heq
    rw [heq]
  · rfl

/-- What is kept under the key, where nothing is served. -/
theorem restored_eq_some {blob : Option Bytes} {b : Bytes} : c.restored env k blob = some b ↔
    blob = none ∧ (if env.dbOk (.kvGet k) then c.db.kvGet k else none) = some b := by
  unfold Core.restored
  cases blob <;> simp

theorem or_of_not_restored (hno : c.restored env k (k.blob c) = none) :
    (k.blob c).or (if env.dbOk (.kvGet k) then c.db.kvGet k else none) = k.blob c := by
  cases htold : k.blob c with
  | some blob => rfl
  | none =>
    rw [Option.none_or]
    refine Option.eq_none_iff_forall_ne_some.mpr fun b hb => ?_
    rw [htold, restored_eq_some.mpr ⟨rfl, hb⟩] at hno
    cases hno

theorem restoreSelfInfo_restores (h : c.restoreSelfInfo env = .ok c₁) : Restores .selfInfoRaw env c c₁ := by
  unfold restoreSelfInfo at h
  split at h
  · rename_i blob hblob
    obtain ⟨hnone, hkept⟩ := restored_eq_some.mp hblob
    obtain ⟨c₂, hc₂, h⟩ := Except.of_bind_eq_ok h
    cases h
    obtain ⟨hdb, hblobs⟩ := extractRadioIdentity_same hc₂
    refine ⟨hdb, fun k' => ?_⟩
    rw [show KvKey.selfInfoRaw.blob c = none from hnone, hkept, Option.none_or, ← blob_of_blobs hblobs]
    cases k' <;> rfl
  · rename_i hno
    cases h
    exact .of_same rfl rfl (or_of_not_restored hno)

theorem restoreDeviceInfo_restores (h : c.restoreDeviceInfo env = .ok c₁) : Restores .deviceInfoRaw env c c₁ := by
  unfold restoreDeviceInfo at h
  split at h
  · rename_i blob hblob
    obtain ⟨hnone, hkept⟩ := restored_eq_some.mp hblob
    obtain ⟨c₂, hc₂, h⟩ := Except.of_bind_eq_ok h
    cases h
    obtain ⟨hdb, hblobs⟩ := extractMaxChannels_same hc₂
    refine ⟨hdb, fun k' => ?_⟩
    rw [show KvKey.deviceInfoRaw.blob c = none from hnone, hkept, Option.none_or, ← blob_of_blobs hblobs]
    cases k' <;> rfl
  · rename_i hno
    cases h
    exact .of_same rfl rfl (or_of_not_restored hno)

theorem restoreBatteryInfo_restores : Restores .batteryInfoRaw env c (c.restoreBatteryInfo env) := by
  unfold restoreBatteryInfo
  split
  · rename_i blob hblob
    obtain ⟨hnone, hkept⟩ := restored_eq_some.mp hblob
    refine ⟨rfl, fun k' => ?_⟩
    rw [show KvKey.batteryInfoRaw.blob c = none from hnone, hkept, Option.none_or]
    cases k' <;> rfl
  · rename_i hno
    exact .of_same rfl rfl (or_of_not_restored hno)

/-- A start serves what is kept wherever the radio did not tell. -/
theorem restoreBlobs_restores (h : c.restoreBlobs env = .ok c₁) (hk : k.code ≠ none) : c₁.db = c.db ∧
    k.blob c₁ = (k.blob c).or (if env.dbOk (.kvGet k) then c.db.kvGet k else none) := by
  obtain ⟨c₂, hself, h⟩ := Except.of_bind_eq_ok h
  obtain ⟨c₃, hdevice, h⟩ := Except.of_bind_eq_ok h
  cases h
  have h₁ := restoreSelfInfo_restores hself
  have h₂ := restoreDeviceInfo_restores hdevice
  have h₃ : Restores .batteryInfoRaw env c₃ (c₃.restoreBatteryInfo env) := restoreBatteryInfo_restores
  refine ⟨h₃.db.trans (h₂.db.trans h₁.db), ?_⟩
  cases k with
  | contactsSyncedAt => exact absurd rfl hk
  | selfInfoRaw | deviceInfoRaw | batteryInfoRaw => simp [h₃.blob, h₂.blob, h₁.blob, h₂.db, h₁.db]

theorem Remembers.restore (h : Remembers k P c) (hk : k.code ≠ none) (hs : c.restoreBlobs env = .ok c₁) :
    Remembers k P c₁ := by
  obtain ⟨hdb, hblob⟩ := restoreBlobs_restores hs hk
  refine ⟨hdb ▸ h.kept, ?_⟩
  rw [hblob]
  cases htold : k.blob c with
  | some blob =>
    have hserved := h.served
    rw [htold] at hserved
    exact Or.inr (hserved.resolve_left nofun)
  | none =>
    rw [Option.none_or]
    split
    · exact Or.inr h.kept
    · exact Or.inl rfl

/-- No write changes what is kept, but for a frame of the key's code. -/
theorem Write.remembers (hw : Write S c c₁) (hk : k.code ≠ none) (hS : ∀ p, S.frame p → p.head? = k.code → P (some p))
    (h : Remembers k P c) : Remembers k P c₁ := by
  cases hw with
  | queue hmemory =>
    simp only [memory, Prod.mk.injEq] at hmemory
    obtain ⟨-, hdb, hself, hdevice, hbattery, -⟩ := hmemory
    exact h.of_eq (by rw [hdb]) (by rw [blobs, hself, hdevice, hbattery]; rfl)
  | lock => exact h.talk lockClients_talks
  | start => exact h.start
  | init | broadcast => exact h.talk emit_talks
  | error | reply | ack => exact h.talk sendToClient_talks
  | fanout => exact h.talk broadcastToOthers_talks
  | notify => exact h.talk notifyMissed_talks
  | register =>
    unfold registerSession
    dsimp only
    split <;> exact h.of_eq rfl rfl
  | version =>
    unfold recordVersion
    split
    · split
      · exact h.of_eq rfl rfl
      · exact h
    · exact h
  | replay => exact h.replay
  | cached => exact h.talk tryServeFromCache_talks
  | cache _ hframe hcode hs => exact h.cache hs fun hkey => hS _ hframe (hcode.trans hkey.symm)
  | raw =>
    unfold recordRaw
    split
    · exact h.of_eq rfl rfl
    · exact h
  | accept => exact h.accept hk
  | echo => exact (h.talk broadcastToOthers_talks).store
  | maintain => exact h.of_eq (maintain_purged c _).kv rfl
  | restore _ _ hs => exact h.restore hk hs

theorem Writes.remembers (hw : Writes S c c₁) (hk : k.code ≠ none) (hS : ∀ p, S.frame p → p.head? = k.code → P (some p))
    (h : Remembers k P c) : Remembers k P c₁ := by
  induction hw with
  | refl => exact h
  | tail _ hw ih => exact hw.remembers hk hS ih

/-! ### A start -/

/-- A start restores what is kept last. -/
theorem start_restores {config : Config} {db : NodeState} {first : Attempt} {attempts : List Attempt}
    (h : (Core.new config db).start env first attempts = .ok c) : ∃ c' : Core, c'.restoreBlobs env = .ok c := by
  obtain ⟨⟨ok, c'⟩, -, h⟩ := Except.of_bind_eq_ok h
  dsimp only at h
  split at h
  · exact ⟨c', h⟩
  · obtain ⟨c'', -, h⟩ := Except.of_bind_eq_ok h
    exact ⟨c'', h⟩

/-- What was kept before the start is still, and is served then if it can be read. -/
theorem Remembers.boot {config : Config} {db : NodeState} {first : Attempt} {attempts : List Attempt}
    (hk : k.code ≠ none) (h : P (db.kvGet k)) (hs : (Core.new config db).start env first attempts = .ok c)
    (hheard : ∀ a ∈ first :: attempts, ∀ p, Recv.frame p ∈ a.recv → p.head? = k.code → P (some p)) :
    Remembers k P c ∧ (env.dbOk (.kvGet k) = true → P (k.blob c)) := by
  have hnew : Remembers k P (Core.new config db) := ⟨h, Or.inl (by cases k <;> rfl)⟩
  have hafter : Remembers k P c := (start_writes hs).remembers hk (fun p ⟨⟨a, ha, hp⟩, _⟩ => hheard a ha p hp) hnew
  refine ⟨hafter, fun hok => ?_⟩
  obtain ⟨c', hlast⟩ := start_restores hs
  obtain ⟨hdb, hblob⟩ := restoreBlobs_restores hlast hk
  rcases hafter.served with hnone | hserved
  · rw [hblob, if_pos hok, Option.or_eq_none_iff] at hnone
    rw [hblob, if_pos hok, hnone.1, Option.none_or, ← hdb]
    exact hafter.kept
  · exact hserved

/-! ### All that the proxy does -/

/-- A frame that the radio sends while the turn is made, or the start. -/
def Deed.Receives (p : Bytes) : Deed → Prop
  | .boot _ first attempts _ => ∃ a ∈ first :: attempts, Recv.frame p ∈ a.recv
  | .turn ⟨_, _, .radio _ frame, _⟩ => p = frame
  | .turn ⟨_, _, .disconnected attempts, _⟩ => ∃ a ∈ attempts, Recv.frame p ∈ a.recv
  | .turn _ => False

theorem receives_of_scope {s : Lap} {b : Core} (h : (s.event.scope b).frame payload) :
    Deed.Receives payload (.turn s) := by
  obtain ⟨before, frontend, e, after⟩ := s
  cases e with
  | radio => exact h
  | disconnected => exact h.1
  | command | timeoutTick | maintenanceTick | idle => exact h

theorem Remembers.step {s : Lap} (h : Remembers k P s.before) (hk : k.code ≠ none)
    (hs : s.before.step s.frontend s.event = .ok s.after)
    (hheard : ∀ p, Deed.Receives p (.turn s) → p.head? = k.code → P (some p)) : Remembers k P s.after := by
  have hwrites : Writes (s.event.scope (s.before.begin s.frontend)) (s.before.begin s.frontend) s.after :=
    handle_writes hs
  exact hwrites.remembers hk (fun p hp => hheard p (receives_of_scope hp)) (h.of_eq rfl rfl)

/-- A turn that hears a frame of the key keeps it, if the database takes it. -/
theorem step_remembers (hk : k.code = some code) (hcode : frame.head? = some code) (hok : env.dbOk (.kvSet k) = true)
    (hs : c.step frontend (.radio env frame) = .ok c₁) : Remembers k (· = some frame) c₁ := by
  obtain ⟨rest, rfl⟩ : ∃ rest, frame = code :: rest := List.head?_eq_some_iff.mp hcode
  obtain ⟨_, -, hs⟩ := Except.of_bind_eq_ok hs
  obtain ⟨c₂, hcache, hs⟩ := Except.of_bind_eq_ok hs
  cases hs
  obtain ⟨hkv, hblob⟩ := cacheResponse_heard hk hcache
  have hheard : Remembers k (· = some (code :: rest)) c₂ := by
    refine ⟨?_, Or.inr ?_⟩
    · rw [NodeState.kvGet, hkv, ← NodeState.kvGet, kvGet_kvSet, if_pos ⟨rfl, hok⟩]
    · rw [hblob, if_pos rfl]
  have hroute : Writes ⟨(· = env), (· = code :: rest), fun _ => False, fun _ _ _ => False, fun _ => True, False, False⟩
      c₂ ((c₂.recordRaw env code (code :: rest)).routeFrame env code (code :: rest)) :=
    .head .raw (routeFrame_writes rfl rfl rfl fun _ _ => trivial)
  exact hroute.remembers (by simp [hk]) (fun p hp _ => congrArg some hp) hheard

variable {l l' : List Deed}

/-- Whatever is kept of the radio or served of it, at this start or at a later one, is a frame that the radio sent. -/
theorem Service.remembers (hk : k.code ≠ none) (h : Service l c) :
    Remembers k (∀ blob ∈ ·, blob.head? = k.code ∧ ∃ d ∈ l, d.Receives blob) c := by
  have hmore {l : List Deed} {d : Deed} {c : Core}
      (h : Remembers k (∀ blob ∈ ·, blob.head? = k.code ∧ ∃ d ∈ l, d.Receives blob) c) :
      Remembers k (∀ blob ∈ ·, blob.head? = k.code ∧ ∃ d' ∈ l ++ [d], d'.Receives blob) c := by
    have hlonger {o : Option Bytes} (h : ∀ blob ∈ o, blob.head? = k.code ∧ ∃ d ∈ l, d.Receives blob) :
        ∀ blob ∈ o, blob.head? = k.code ∧ ∃ d' ∈ l ++ [d], d'.Receives blob := by
      intro blob hblob
      obtain ⟨hcode, d', hd', hreceives⟩ := h blob hblob
      exact ⟨hcode, d', List.mem_append_left _ hd', hreceives⟩
    exact ⟨hlonger h.kept, h.served.imp_right hlonger⟩
  induction h with
  | install hstart =>
    refine (Remembers.boot hk ?_ hstart fun a ha p hp hcode => ?_).1
    · intro blob hblob
      cases hblob
    · intro blob hblob
      obtain rfl := Option.some.inj hblob
      exact ⟨hcode, _, List.mem_singleton_self _, a, ha, hp⟩
  | restart _ hstart ih =>
    refine (Remembers.boot hk (hmore ih).kept hstart fun a ha p hp hcode => ?_).1
    intro blob hblob
    obtain rfl := Option.some.inj hblob
    exact ⟨hcode, _, List.mem_append_right _ (List.mem_singleton_self _), a, ha, hp⟩
  | @turn l c c₁ frontend e _ hs ih =>
    refine Remembers.step (s := ⟨c, frontend, e, c₁⟩) (hmore ih) hk hs fun p hp hcode => ?_
    intro blob hblob
    obtain rfl := Option.some.inj hblob
    exact ⟨hcode, _, List.mem_append_right _ (List.mem_singleton_self _), hp⟩

theorem info_told {blob : Bytes} (h : Service l c) (hk : k.code ≠ none)
    (hblob : k.blob c = some blob ∨ c.db.kvGet k = some blob) :
    blob.head? = k.code ∧ ∃ d ∈ l, d.Receives blob := by
  obtain ⟨hkept, hserved⟩ := h.remembers hk
  rcases hblob with hblob | hblob
  · exact hserved.resolve_left (by simp [hblob]) blob hblob
  · exact hkept blob hblob

/-- What the radio told of itself is kept from then on, over all starts, until it tells again; nothing else is
    served in its stead, and each start that can read it serves it. -/
theorem info_survives {s : Lap} (h : Service (l ++ .turn s :: l') c) (he : s.event = .radio env frame)
    (hk : k.code = some code) (hcode : frame.head? = some code) (hok : env.dbOk (.kvSet k) = true)
    (hno : ∀ d ∈ l', ∀ p, d.Receives p → p.head? ≠ some code) :
    c.db.kvGet k = some frame ∧ (k.blob c = none ∨ k.blob c = some frame) ∧
      ∀ env' first attempts, l'.getLast? = some (.boot env' first attempts c) → env'.dbOk (.kvGet k) = true →
      k.blob c = some frame := by
  have hne : k.code ≠ none := by simp [hk]
  suffices hsuffices : Remembers k (· = some frame) c ∧ ∀ env' first attempts,
      l'.getLast? = some (.boot env' first attempts c) →
      env'.dbOk (.kvGet k) = true → k.blob c = some frame from ⟨hsuffices.1.kept, hsuffices.1.served, hsuffices.2⟩
  induction l' using List.reverseRecOn generalizing c with
  | nil =>
    obtain ⟨-, hs, rfl⟩ := h.of_turn
    rw [he] at hs
    exact ⟨step_remembers hk hcode hok hs, nofun⟩
  | append_singleton l' d ih =>
    have hbefore (d' : Deed) (hd' : d' ∈ l') := hno d' (List.mem_append_left _ hd')
    have hlast (p : Bytes) (hp : d.Receives p) (hhead : p.head? = k.code) : some p = some frame :=
      absurd (hhead.trans hk) (hno d (List.mem_append_right _ (List.mem_singleton_self _)) p hp)
    rw [← List.cons_append, ← List.append_assoc] at h
    cases d with
    | turn t =>
      obtain ⟨hservice, hs, rfl⟩ := h.of_turn
      exact ⟨(ih hservice hbefore).1.step hne hs hlast, by simp⟩
    | boot env' first attempts after =>
      obtain ⟨c', config, hservice, hstart⟩ := h.of_boot (by simp)
      obtain ⟨hremembers, hserves⟩ := Remembers.boot (P := (· = some frame)) hne (ih hservice hbefore).1.kept hstart
        fun a ha p hp => hlast p ⟨a, ha, hp⟩
      refine ⟨hremembers, fun env'' first' attempts' hboot => ?_⟩
      rw [List.getLast?_concat] at hboot
      cases hboot
      exact hserves

/-! ### A start without the radio -/

/-- The radio tells of its battery; then the proxy is started anew, and the radio is gone. -/
theorem battery_run : Except.Holds (do
    let c₀ ← booted .off
    let c₁ ← c₀.step [] (.radio sound [0x0C, 1, 2])
    let c₂ ← (Core.new c₁.config c₁.db).start sound ⟨false, [], sound, sound, sound⟩ []
    return (c₀, c₁, c₂)) fun r => r.2.2.radioUp = false ∧ r.2.2.batteryInfoRaw = some [0x0C, 1, 2] := by
  decide +kernel

/-- The battery is still served. -/
theorem info_survives_battery : ∃ l s d c, Service (l ++ .turn s :: [d]) c ∧ s.event = .radio sound [0x0C, 1, 2] ∧
    c.radioUp = false ∧
    c.db.kvGet .batteryInfoRaw = some [0x0C, 1, 2] ∧ c.batteryInfoRaw = some [0x0C, 1, 2] := by
  obtain ⟨⟨c₀, c₁, c₂⟩, hrun, hup, -⟩ := battery_run
  obtain ⟨_, hboot, hrun⟩ := Except.of_bind_eq_ok hrun
  obtain ⟨_, hstep, hrun⟩ := Except.of_bind_eq_ok hrun
  obtain ⟨_, hreboot, hrun⟩ := Except.of_bind_eq_ok hrun
  cases hrun
  let s : Lap := ⟨c₀, [], .radio sound [0x0C, 1, 2], c₁⟩
  have hservice :
      Service ([.boot sound _ [] c₀] ++ .turn s :: [.boot sound ⟨false, [], sound, sound, sound⟩ [] c₂]) c₂ :=
    ((Service.install hboot).turn hstep).restart hreboot
  have hsilent (d : Deed) (hd : d ∈ [Deed.boot sound ⟨false, [], sound, sound, sound⟩ [] c₂]) (p : Bytes)
      (hp : d.Receives p) : p.head? ≠ some 0x0C := by
    obtain rfl := List.mem_singleton.mp hd
    obtain ⟨a, ha, hframe⟩ := hp
    obtain rfl := List.mem_singleton.mp ha
    cases hframe
  obtain ⟨hkept, -, hserves⟩ := info_survives (k := .batteryInfoRaw) hservice rfl rfl rfl rfl hsilent
  exact ⟨_, s, _, c₂, hservice, rfl, hup, hkept, hserves sound _ _ rfl rfl⟩

/-- It is what the radio told before. -/
theorem info_told_battery : ∃ l c, Service l c ∧ c.radioUp = false ∧ c.batteryInfoRaw = some [0x0C, 1, 2] ∧
    ∃ d ∈ l, d.Receives [0x0C, 1, 2] := by
  obtain ⟨⟨c₀, c₁, c₂⟩, hrun, hup, hbattery⟩ := battery_run
  obtain ⟨_, hboot, hrun⟩ := Except.of_bind_eq_ok hrun
  obtain ⟨_, hstep, hrun⟩ := Except.of_bind_eq_ok hrun
  obtain ⟨_, hreboot, hrun⟩ := Except.of_bind_eq_ok hrun
  cases hrun
  have hservice := ((Service.install hboot).turn hstep).restart hreboot
  obtain ⟨-, hreceived⟩ := info_told (k := .batteryInfoRaw) hservice (by decide) (Or.inl hbattery)
  exact ⟨_, c₂, hservice, hup, hbattery, hreceived⟩

end
end Core
end CoreSplitter
