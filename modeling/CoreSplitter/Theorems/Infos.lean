import CoreSplitter.Theorems.Echoes

/-! SELF_INFO and DEVICE_INFO: when the core caches them, drops them and serves them. -/

namespace CoreSplitter
open Bytes

/-- What the core caches of the radio itself. -/
inductive Info
  | selfInfo
  | deviceInfo
deriving DecidableEq

namespace Info

/-- The code of its frame. -/
def code : Info → UInt8
  | selfInfo => 0x05
  | deviceInfo => 0x0D

/-- The command that reads it. -/
def request : Info → UInt8
  | selfInfo => 0x01
  | deviceInfo => 0x16

def cached (c : Core) : Info → Option Bytes
  | selfInfo => c.selfInfoRaw
  | deviceInfo => c.deviceInfoRaw

end Info

namespace Core

/-- Between `c` and `c₁` an info is kept, dropped, or cached from a frame of `F`. -/
def Recached (F : Bytes → Prop) (k : Info) (c c₁ : Core) : Prop :=
  k.cached c₁ = k.cached c ∨ k.cached c₁ = none ∨ ∃ frame, F frame ∧ frame.head? = some k.code ∧
    k.cached c₁ = some frame

section
variable {F : Bytes → Prop} {S : Scope} {k : Info} {c c₁ c₂ : Core} {env : Env} {e : Event}
  {frontend : List (List FrontendOp)}

theorem cached_of_infos (h : c₁.infos = c.infos) : k.cached c₁ = k.cached c := by
  cases k with
  | selfInfo => exact congrArg Prod.fst h
  | deviceInfo => exact congrArg Prod.snd h

theorem Recached.of_infos (h : c₁.infos = c.infos) : Recached F k c c₁ := Or.inl (cached_of_infos h)

theorem Recached.trans (h₁ : Recached F k c c₁) (h₂ : Recached F k c₁ c₂) : Recached F k c c₂ := by
  rcases h₂ with h₂ | h₂
  · unfold Recached
    rw [h₂]
    exact h₁
  · exact Or.inr h₂

theorem startWith_recached {q : Queued} : Recached F k c (c.startWith env q) := by
  obtain ⟨db, self, device, battery, hform, -, hblobs⟩ := startWith_form c env q
  rw [hform]
  rcases hblobs with ⟨rfl, rfl, -⟩ | ⟨rfl, rfl, -⟩
  · exact .of_infos rfl
  · refine Or.inr (Or.inl ?_)
    cases k <;> rfl

theorem cacheResponse_recached {code : UInt8} {frame : Bytes} (h : c.cacheResponse env code frame = .ok c₁)
    (hframe : F frame) (hcode : frame.head? = some code) : Recached F k c c₁ := by
  by_cases hself : code = 0x05
  · subst hself
    have hinfos := cacheResponse_self h
    cases k with
    | selfInfo => exact Or.inr (Or.inr ⟨frame, hframe, hcode, congrArg Prod.fst hinfos⟩)
    | deviceInfo => exact Or.inl (congrArg Prod.snd hinfos)
  · by_cases hdevice : code = 0x0D
    · subst hdevice
      have hinfos := (cacheResponse_device h).2
      cases k with
      | selfInfo => exact Or.inl (congrArg Prod.fst hinfos)
      | deviceInfo => exact Or.inr (Or.inr ⟨frame, hframe, hcode, congrArg Prod.snd hinfos⟩)
    · exact .of_infos (congrArg Prod.snd (cacheResponse_profile h hself hdevice))

theorem Write.recached (hw : Write S c c₁) (hstartup : ¬S.startup) : Recached S.frame k c c₁ := by
  cases hw.reprofiled with
  | same h => exact .of_infos (congrArg Prod.snd h)
  | start h => exact h ▸ startWith_recached
  | cache hframe hcode h => exact cacheResponse_recached h hframe hcode
  | accept _ h => exact h ▸ .of_infos afterAccepted_infos
  | restore h => exact absurd h hstartup

theorem Writes.recached (hw : Writes S c c₁) (hstartup : ¬S.startup) : Recached S.frame k c c₁ :=
  Writes.keeps hw (.of_infos rfl) fun _ _ h hold => hold.trans (h.recached hstartup)

theorem scope_startup (c : Core) (e : Event) : ¬(e.scope c).startup := by
  cases e <;> exact id

theorem step_recached (h : c.step frontend e = .ok c₁) : Recached (e.scope (c.begin frontend)).frame k c c₁ := by
  have hbegin : Recached (e.scope (c.begin frontend)).frame k c (c.begin frontend) := .of_infos rfl
  exact hbegin.trans ((handle_writes h).recached (scope_startup _ e))

/-! ### Serving -/

theorem readsBlob_cached {blob : Bytes} (h : c.ReadsBlob k.request blob) : k.cached c = some blob := by
  cases k
  · rcases h with ⟨-, h⟩ | ⟨h, -⟩ | ⟨h, -⟩
    · exact h
    · cases h
    · cases h
  · rcases h with ⟨h, -⟩ | ⟨-, h⟩ | ⟨h, -⟩
    · cases h
    · exact h
    · cases h

/-- What a client gets from the cache for APP_START or DEVICE_QUERY is what was cached when it asked. -/
theorem served_info {v : ClientId → UInt8} {cmd : ClientCommand} {cid : ClientId} {who : Option Identity}
    {version : UInt8} {frame : Bytes} (ht : Told v .any c) (hs : c.step frontend (.command env cmd) = .ok c₁)
    (hread : cmd.payload.head? = some k.request) (hsent : .client cid who version frame .cached ∈ c₁.out) :
    ∃ blob, k.cached c = some blob ∧ frame = messageFrameFor version blob := by
  have htells := (step_tells (q := fun _ why payload => why = .cached → k.cached c = some payload)
    (I := fun c₂ => Recached (fun _ => False) k c c₂) hs ht (.of_infos rfl)
    (fun _ _ hw hold => hold.trans (hw.recached id)) ?_).1
  · obtain ⟨-, -, blob, hframe, hblob⟩ := htells.out _ hsent
    exact ⟨blob, hblob rfl, hframe⟩
  · intro c₂ hI cid why payload _ hsource hwhy
    subst hwhy
    cases hsource with
    | blob hcmd _ hcode h =>
      cases hcmd
      cases hread.symm.trans hcode
      rcases hI with hI | hI | ⟨_, hfalse, -⟩
      · exact hI ▸ readsBlob_cached h
      · cases hI.symm.trans (readsBlob_cached h)
      · cases hfalse
    | row hcmd _ hcode hrow _ =>
      cases hcmd
      cases hread.symm.trans hcode
      cases k <;> rcases hrow with hrow | hrow <;> cases hrow

/-! ### A new link -/

/-- The radio answers both commands of the initialisation, after frames that are skipped. -/
def Attempt.Answered (info : Info → Bytes) (a : Attempt) : Prop :=
  ∃ pre mid post, a.recv = pre ++ .frame (info .selfInfo) :: (mid ++ .frame (info .deviceInfo) :: post) ∧
    (∀ r ∈ pre, ∃ p, r = .frame p ∧ p.head? ≠ some 0x05) ∧
    ∀ r ∈ mid, ∃ p, r = .frame p ∧ p.head? ≠ some 0x0D ∧ p.head? ≠ some 0x01

/-- The attempt is answered if it connects at all. -/
def Attempt.Tells (info : Info → Bytes) (a : Attempt) : Prop := a.connects = true → a.Answered info

theorem waitForSelfInfo_answered {pre rest rest' : List Recv} {blob : Bytes} {ok : Bool}
    (hblob : blob.head? = some 0x05) (hpre : ∀ r ∈ pre, ∃ p, r = .frame p ∧ p.head? ≠ some 0x05)
    (h : c.waitForSelfInfo env (pre ++ .frame blob :: rest) = .ok (ok, rest', c₁)) :
    rest' = rest ∧ c₁.infos = (some blob, c.deviceInfoRaw) := by
  induction pre with
  | nil =>
    rw [List.nil_append, waitForSelfInfo, if_pos hblob] at h
    obtain ⟨c₂, hc₂, h⟩ := Except.of_bind_eq_ok h
    cases h
    exact ⟨rfl, cacheResponse_self hc₂⟩
  | cons r pre ih =>
    obtain ⟨p, rfl, hp⟩ := hpre r List.mem_cons_self
    rw [List.cons_append, waitForSelfInfo, if_neg hp] at h
    obtain ⟨-, -, h⟩ := Except.of_bind_eq_ok h
    exact ih (fun r hr => hpre r (List.mem_cons_of_mem _ hr)) h

theorem waitForDeviceInfo_answered {mid rest rest' : List Recv} {blob : Bytes} {ok : Bool}
    (hblob : blob.head? = some 0x0D) (hmid : ∀ r ∈ mid, ∃ p, r = .frame p ∧ p.head? ≠ some 0x0D ∧ p.head? ≠ some 0x01)
    (h : c.waitForDeviceInfo env (mid ++ .frame blob :: rest) = .ok (ok, rest', c₁)) :
    c₁.infos = (c.selfInfoRaw, some blob) := by
  induction mid with
  | nil =>
    rw [List.nil_append, waitForDeviceInfo, if_pos hblob] at h
    obtain ⟨c₂, hc₂, h⟩ := Except.of_bind_eq_ok h
    cases h
    exact (cacheResponse_device hc₂).2
  | cons r mid ih =>
    obtain ⟨p, rfl, hp, hp'⟩ := hmid r List.mem_cons_self
    rw [List.cons_append, waitForDeviceInfo, if_neg hp, if_neg hp'] at h
    obtain ⟨-, -, h⟩ := Except.of_bind_eq_ok h
    exact ih (fun r hr => hmid r (List.mem_cons_of_mem _ hr)) h

theorem initializeRadio_answered {a : Attempt} {info : Info → Bytes} (hinfo : ∀ k, (info k).head? = some k.code)
    (ha : a.Answered info) (h : c.initializeRadio a = .ok (true, c₁)) :
    c₁.infos = (some (info .selfInfo), some (info .deviceInfo)) := by
  obtain ⟨pre, mid, post, hrecv, hpre, hmid⟩ := ha
  unfold initializeRadio at h
  split at h
  · cases h
  · obtain ⟨⟨ok, rest, c₂⟩, hc₂, h⟩ := Except.of_bind_eq_ok h
    rw [hrecv] at hc₂
    obtain ⟨rfl, hself⟩ := waitForSelfInfo_answered (hinfo .selfInfo) hpre hc₂
    dsimp only at h
    split at h
    · cases h
    · split at h
      · cases h
      · obtain ⟨⟨ok', rest', c₃⟩, hc₃, h⟩ := Except.of_bind_eq_ok h
        cases h
        have hdevice := waitForDeviceInfo_answered (hinfo .deviceInfo) hmid hc₃
        exact hdevice.trans (congrArg (·, some (info .deviceInfo)) (congrArg Prod.fst hself))

theorem isEligible_infos {q : Queued} : (c.isEligible q).2.infos = c.infos := by
  unfold isEligible
  split <;> rfl

theorem failTo_infos {q : Queued} : (c.failTo q).infos = c.infos := by
  unfold failTo
  split
  · exact congrArg Prod.snd sendToClient_talks.profile
  · rfl

theorem syncQueued_infos : c.syncQueued.infos = c.infos := by
  have hpushes (idxs : List Nat) (c : Core) :
      (idxs.foldl (fun c idx => c.pushBack none (getChannel (UInt8.ofNat idx))) c).infos = c.infos := by
    induction idxs generalizing c with
    | nil => rfl
    | cons idx rest ih => exact ih _
  exact hpushes _ _

theorem advanceFromSync_infos {qs : List Queued} : (c.advanceFromSync env qs).infos = c.infos := by
  induction qs generalizing c with
  | nil => rfl
  | cons q rest ih =>
    have hpopped : ((c.popped rest).isEligible q).2.infos = c.infos := isEligible_infos
    simp only [advanceFromSync, show { c with pendingQueue := rest } = c.popped rest from rfl]
    split
    · exact ih.trans hpopped
    · split
      · exact hpopped
      · split
        · exact failTo_infos.trans hpopped
        · exact hpopped

theorem syncFromRadio_infos : (c.syncFromRadio env).infos = c.infos := by
  rw [syncFromRadio_eq]
  split
  · exact advanceFromSync_infos.trans syncQueued_infos
  · exact syncQueued_infos

/-- After an attempt the core has a radio and what it tells of itself, or it has no radio. -/
theorem attemptRadio_tells {a : Attempt} {ok : Bool} {info : Info → Bytes} (hinfo : ∀ k, (info k).head? = some k.code)
    (ha : a.Tells info) (hlink : c.radioSendTx = false) (h : c.attemptRadio a = .ok (ok, c₁)) :
    ok = true ∧ c₁.infos = (some (info .selfInfo), some (info .deviceInfo)) ∨ ok = false ∧ c₁.radioSendTx = false := by
  unfold attemptRadio at h
  split at h
  · cases h
    exact Or.inr ⟨rfl, hlink⟩
  · rename_i hconnects
    obtain ⟨⟨ok', c₂⟩, hinit, h⟩ := Except.of_bind_eq_ok h
    dsimp only at h
    split at h
    · rename_i hok
      cases h
      subst hok
      have hanswered : a.Answered info := ha (by simpa using hconnects)
      exact Or.inl ⟨rfl, syncFromRadio_infos.trans (initializeRadio_answered hinfo hanswered hinit)⟩
    · cases h
      exact Or.inr ⟨rfl, rfl⟩

theorem reconnectLoop_tells {attempts : List Attempt} {info : Info → Bytes} (hinfo : ∀ k, (info k).head? = some k.code)
    (ha : ∀ a ∈ attempts, a.Tells info) (hlink : c.radioSendTx = false) (h : c.reconnectLoop attempts = .ok c₁) :
    c₁.infos = (some (info .selfInfo), some (info .deviceInfo)) ∨ c₁.radioSendTx = false := by
  induction attempts generalizing c with
  | nil =>
    cases h
    exact Or.inr hlink
  | cons a rest ih =>
    obtain ⟨⟨ok, c₂⟩, hattempt, h⟩ := Except.of_bind_eq_ok h
    rcases attemptRadio_tells hinfo (ha a List.mem_cons_self) hlink hattempt with ⟨rfl, htold⟩ | ⟨rfl, hlink₂⟩
    · cases h
      exact Or.inl htold
    · exact ih (fun a ha' => ha a (List.mem_cons_of_mem _ ha')) hlink₂ h

theorem failFrom_link {qs : List Queued} : (c.failFrom qs).radioSendTx = c.radioSendTx := by
  induction qs generalizing c with
  | nil => rfl
  | cons q rest ih => exact ih.trans (failTo_still (c := c.popped rest) (q := q)).link

theorem failAll_link : c.failAll.radioSendTx = false := by
  unfold failAll
  dsimp only
  refine failFrom_link.trans ?_
  split
  · exact failTo_still.link
  · rfl

theorem reconnectRadio_tells {attempts : List Attempt} {info : Info → Bytes} (hinfo : ∀ k, (info k).head? = some k.code)
    (ha : ∀ a ∈ attempts, a.Tells info) (h : c.reconnectRadio attempts = .ok c₁) :
    c₁.infos = (some (info .selfInfo), some (info .deviceInfo)) ∨ c₁.radioSendTx = false :=
  reconnectLoop_tells hinfo ha failAll_link h

/-- Nothing is restored in place of what the radio told. -/
theorem restoreBlobs_told {self device : Bytes} (hinfos : c.infos = (some self, some device))
    (h : c.restoreBlobs env = .ok c₁) : c₁.infos = (some self, some device) := by
  have hself : c.selfInfoRaw = some self := congrArg Prod.fst hinfos
  have hdevice : c.deviceInfoRaw = some device := congrArg Prod.snd hinfos
  have hrestored : c.restoreBlobs env = .ok (c.restoreBatteryInfo env) := by
    simp [restoreBlobs, restoreSelfInfo, restoreDeviceInfo, restored, hself, hdevice, bind, Except.bind,
      pure, Except.pure]
  cases hrestored.symm.trans h
  unfold restoreBatteryInfo
  split <;> exact hinfos

theorem start_tells_info {config : Config} {db : NodeState} {first : Attempt} {attempts : List Attempt}
    {info : Info → Bytes} (hinfo : ∀ k, (info k).head? = some k.code) (ha : ∀ a ∈ first :: attempts, a.Tells info)
    (h : (Core.new config db).start env first attempts = .ok c) :
    c.infos = (some (info .selfInfo), some (info .deviceInfo)) ∨ c.radioSendTx = false := by
  obtain ⟨⟨ok, c₁⟩, hfirst, h⟩ := Except.of_bind_eq_ok h
  have hrestore {c₂ : Core}
      (htold : c₂.infos = (some (info .selfInfo), some (info .deviceInfo)) ∨ c₂.radioSendTx = false)
      (h : c₂.restoreBlobs env = .ok c) :
      c.infos = (some (info .selfInfo), some (info .deviceInfo)) ∨ c.radioSendTx = false := by
    rcases htold with htold | hlink
    · exact Or.inl (restoreBlobs_told htold h)
    · exact Or.inr ((restoreBlobs_still (t := none) h).link.trans hlink)
  rcases attemptRadio_tells hinfo (ha first List.mem_cons_self) rfl hfirst with ⟨rfl, htold⟩ | ⟨rfl, -⟩
  · exact hrestore (Or.inl htold) h
  · obtain ⟨c₂, hreconnect, h⟩ := Except.of_bind_eq_ok h
    exact hrestore (reconnectRadio_tells hinfo (fun a ha' => ha a (List.mem_cons_of_mem _ ha')) hreconnect) h

end
end Core
end CoreSplitter
