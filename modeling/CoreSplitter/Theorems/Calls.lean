import CoreSplitter.Theorems.Writes

/-! The database is changed by its calls alone. -/

namespace CoreSplitter
open Bytes

namespace Core

/-- A call that a turn makes, next to those of its maintenance. -/
inductive Call (S : Scope) (db : NodeState) : NodeState → Prop
  | upsertContact {env : Env} (henv : S.env env) (contact : CachedContact) :
      Call S db (db.upsertContact env.unix contact)
  | upsertChannel (channel : CachedChannel) : Call S db (db.upsertChannel channel)
  | deleteContact (key : Bytes) : Call S db (db.deleteContact key)
  | deleteChannel (idx : Int) : Call S db (db.deleteChannel idx)
  | insertMessage {env : Env} (henv : S.env env) (msg : NewMessage) : Call S db (db.insertMessage env.unix msg)
  | advanceClientCursor {env : Env} (henv : S.env env) (who : Identity) (id : MessageId) :
      Call S db (db.advanceClientCursor env.unix who id)
  | kvSet {key : KvKey} (hkey : key ≠ .contactsSyncedAt) (value : Bytes) : Call S db (db.kvSet key value)
  | setContactsSyncedAt {f : InFlight} (h : S.Accepts f) (hsync : f.cmdCode = 0x04 ∧ f.payload.bytes.length = 1) :
      Call S db (db.setContactsSyncedAt f.sentUnix)
  | insertRawRx (now : Int) (code : UInt8) (frame : Bytes) : Call S db (db.insertRawRx now code frame)

abbrev Calls (S : Scope) := Relation.ReflTransGen (Call S)

section
variable {S : Scope} {c c₁ : Core} {env : Env} {f : InFlight} {q : Queued} {code : UInt8} {frame : Bytes}

theorem Calls.of_eq (h : c₁.db = c.db) : Calls S c.db c₁.db := h ▸ .refl

theorem Talks.calls (h : Talks c c₁) : Calls S c.db c₁.db := by
  obtain ⟨-, _, _, rfl⟩ := h
  exact .refl

theorem startWith_calls : Calls S c.db (c.startWith env q).db := by
  obtain ⟨db, _, _, _, hform, hdb, -⟩ := startWith_form c env q
  rw [hform]
  rcases hdb with rfl | ⟨key, rfl⟩ | ⟨idx, rfl⟩
  · exact .refl
  · exact .single (.deleteContact key)
  · exact .single (.deleteChannel idx)

theorem followHead_calls (id : MessageId) (henv : S.env env) : Calls S c.db (c.followHead env id).db := by
  have hfold (l : List Identity) (c₁ : Core) : Calls S c₁.db (l.foldl
      (fun c who => if env.dbOk (.followHead who) then c.advanceClientCursor env who id else c) c₁).db := by
    induction l generalizing c₁ with
    | nil => exact .refl
    | cons who l ih =>
      rw [List.foldl_cons]
      split
      · exact .head (.advanceClientCursor henv who id) (ih (c₁.advanceClientCursor env who id))
      · exact ih _
  exact hfold c.dropGoneSessions.caughtUp c.dropGoneSessions

theorem storeMessage_calls {msg : NewMessage} (henv : S.env env) : Calls S c.db (c.storeMessage env msg).db := by
  unfold storeMessage
  split
  · have hfollow : Calls S (c.db.insertMessage env.unix msg) _ := followHead_calls (c.db.newRow env.unix msg).id henv
        (c := { c with db := c.db.insertMessage env.unix msg }.emit
          (.stored (c.db.newRow env.unix msg) c.db.clients.keys))
    exact .head (.insertMessage henv msg) hfollow
  · exact .refl

theorem registerSession_calls {cmd : ClientCommand} (henv : S.env env) :
    Calls S c.db (c.registerSession env cmd).db := by
  unfold registerSession
  dsimp only
  split
  · exact .single (.advanceClientCursor henv _ _)
  · exact .refl

theorem replayPending_calls {cid : ClientId} {s : Session} {pending : List MessageId} (henv : S.env env) :
    Calls S c.db (c.replayPending env cid s pending).2.db := by
  induction pending generalizing c with
  | nil => exact .refl
  | cons id rest ih =>
    simp only [replayPending]
    split
    · exact ih (c := c.setPending cid s rest)
    · rename_i frame' _
      have hsent : Calls S c.db ((c.setPending cid s rest).sendToClient cid frame' (.replay id)).db :=
        sendToClient_talks.calls (c := c.setPending cid s rest)
      split
      · exact hsent.tail (.advanceClientCursor henv _ _)
      · exact hsent

theorem replayNextMissed_calls {cid : ClientId} (henv : S.env env) :
    Calls S c.db (c.replayNextMissed env cid).2.db := by
  unfold replayNextMissed
  split
  · exact .refl
  · dsimp only
    split
    · exact (replayPending_calls henv).tail (.advanceClientCursor henv _ _)
    · exact replayPending_calls henv

theorem kvSet_calls {key : KvKey} {value : Bytes} (hkey : key ≠ .contactsSyncedAt) :
    Calls S c.db (c.kvSet env key value).db := by
  unfold Core.kvSet
  split
  · exact .single (.kvSet hkey value)
  · exact .refl

theorem extractRadioIdentity_db {blob : Bytes} (h : c.extractRadioIdentity blob = .ok c₁) : c₁.db = c.db := by
  obtain ⟨d, -, h⟩ := Except.of_bind_eq_ok h
  split at h <;> cases h <;> split <;> rfl

theorem extractMaxChannels_db {blob : Bytes} (h : c.extractMaxChannels blob = .ok c₁) : c₁.db = c.db := by
  obtain ⟨d, -, h⟩ := Except.of_bind_eq_ok h
  split at h <;> cases h
  · split <;> rfl
  · rfl

theorem cacheResponse_calls (h : c.cacheResponse env code frame = .ok c₁) (henv : S.env env) : Calls S c.db c₁.db := by
  unfold cacheResponse at h
  split at h
  · cases h
    split
    · unfold cacheContact
      split
      · exact .single (.upsertContact henv _)
      · exact .refl
    · exact .refl
  · obtain ⟨c₂, hc₂, h⟩ := Except.of_bind_eq_ok h
    cases h
    rw [show ({ c₂ with selfInfoRaw := some frame } : Core).db = c₂.db from rfl, extractRadioIdentity_db hc₂]
    exact kvSet_calls (by decide)
  · cases h
    exact kvSet_calls (by decide)
  · obtain ⟨c₂, hc₂, h⟩ := Except.of_bind_eq_ok h
    cases h
    rw [show ({ c₂ with deviceInfoRaw := some frame } : Core).db = c₂.db from rfl, extractMaxChannels_db hc₂]
    exact kvSet_calls (by decide)
  · obtain ⟨d, -, h⟩ := Except.of_bind_eq_ok h
    split at h <;> cases h
    · exact storeMessage_calls henv
    · exact .refl
  · obtain ⟨d, -, h⟩ := Except.of_bind_eq_ok h
    split at h <;> cases h
    · exact storeMessage_calls henv
    · exact .refl
  · cases h
    split
    · exact storeMessage_calls henv
    · exact .refl
  · cases h
    split
    · exact storeMessage_calls henv
    · exact .refl
  · cases h
    split
    · unfold cacheChannel
      split
      · exact .single (.upsertChannel _)
      · exact .refl
    · exact .refl
  · cases h
    exact .refl

theorem afterAccepted_calls (h : S.Accepts f) : Calls S c.db (c.afterAccepted env f).db := by
  unfold afterAccepted
  dsimp only
  split
  · rename_i hcode
    split
    · rename_i hlen
      split
      · exact .single (.setContactsSyncedAt h ⟨hcode, hlen⟩)
      · exact .refl
    · exact .refl
  · split <;> exact .refl
  · split <;> exact .refl
  all_goals exact .refl

theorem restoreBlobs_db (h : c.restoreBlobs env = .ok c₁) : c₁.db = c.db := by
  obtain ⟨c₂, hc₂, h⟩ := Except.of_bind_eq_ok h
  obtain ⟨c₃, hc₃, h⟩ := Except.of_bind_eq_ok h
  cases h
  have h₂ : c₂.db = c.db := by
    unfold restoreSelfInfo at hc₂
    split at hc₂
    · obtain ⟨c', hc', h⟩ := Except.of_bind_eq_ok hc₂
      cases h
      exact (extractRadioIdentity_db hc' : c'.db = c.db)
    · cases hc₂
      rfl
  have h₃ : c₃.db = c₂.db := by
    unfold restoreDeviceInfo at hc₃
    split at hc₃
    · obtain ⟨c', hc', h⟩ := Except.of_bind_eq_ok hc₃
      cases h
      exact (extractMaxChannels_db hc' : c'.db = c₂.db)
    · cases hc₃
      rfl
  rw [← h₂, ← h₃]
  unfold restoreBatteryInfo
  split <;> rfl

/-- What a write does to the database, next to maintenance. -/
theorem Write.calls (hw : Write S c c₁) : Calls S c.db c₁.db ∨ S.upkeep ∧ ∃ env, S.env env ∧ c₁ = c.maintain env := by
  cases hw with
  | queue hmemory =>
    simp only [memory, Prod.mk.injEq] at hmemory
    exact Or.inl (.of_eq hmemory.2.1)
  | lock => exact Or.inl lockClients_talks.calls
  | start => exact Or.inl startWith_calls
  | init | broadcast => exact Or.inl emit_talks.calls
  | error | reply | ack => exact Or.inl sendToClient_talks.calls
  | fanout => exact Or.inl broadcastToOthers_talks.calls
  | notify => exact Or.inl notifyMissed_talks.calls
  | register henv => exact Or.inl (registerSession_calls henv)
  | version =>
    refine Or.inl ?_
    unfold recordVersion
    split
    · split <;> exact .refl
    · exact .refl
  | replay henv => exact Or.inl (replayNextMissed_calls henv)
  | cached => exact Or.inl tryServeFromCache_talks.calls
  | cache henv _ _ hs => exact Or.inl (cacheResponse_calls hs henv)
  | raw =>
    refine Or.inl ?_
    unfold recordRaw
    split
    · exact .single (.insertRawRx _ _ _)
    · exact .refl
  | accept _ h => exact Or.inl (afterAccepted_calls h)
  | echo henv =>
    exact Or.inl (.trans (broadcastToOthers_talks.calls (c := c)) (storeMessage_calls henv))
  | maintain hupkeep henv => exact Or.inr ⟨hupkeep, _, henv, rfl⟩
  | restore _ _ hs => exact Or.inl (.of_eq (restoreBlobs_db hs))

end
end Core
end CoreSplitter
