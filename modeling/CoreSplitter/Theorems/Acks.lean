import CoreSplitter.Theorems.Echoes
import CoreSplitter.Theorems.Contacts

/-! Whom an ACK goes to: the client whose request got the MSG_SENT that announced it, or everybody. -/

namespace CoreSplitter
open Bytes

namespace Core

/-! ### What leaves the pending ACKs alone -/

section
variable {c c₁ : Core} {env : Env} {q : Queued} {qs : List Queued} {f : InFlight} {code : UInt8} {frame : Bytes}
  {cid : ClientId} {cmd : ClientCommand} {p : Command} {clientId : Option ClientId}

theorem Talks.acks (h : Talks c c₁) : c₁.pendingAcks = c.pendingAcks := by
  obtain ⟨-, _, _, rfl⟩ := h
  rfl

theorem failTo_acks : (c.failTo q).pendingAcks = c.pendingAcks := by
  unfold failTo
  split
  · exact sendToClient_talks.acks
  · rfl

theorem startWith_acks : (c.startWith env q).pendingAcks = c.pendingAcks := by
  obtain ⟨_, _, _, _, hform, -⟩ := startWith_form c env q
  rw [hform]

theorem dispatchToRadio_acks : (c.dispatchToRadio env q).pendingAcks = c.pendingAcks := by
  rw [dispatchToRadio_eq]
  split
  · exact startWith_acks
  · exact failTo_acks

theorem isEligible_acks : (c.isEligible q).2.pendingAcks = c.pendingAcks := by
  unfold isEligible
  split <;> rfl

theorem advanceFrom_acks : (c.advanceFrom env qs).pendingAcks = c.pendingAcks := by
  induction qs generalizing c with
  | nil => rfl
  | cons q rest ih =>
    have hpopped : ((c.popped rest).isEligible q).2.pendingAcks = c.pendingAcks := isEligible_acks
    simp only [advanceFrom, show { c with pendingQueue := rest } = c.popped rest from rfl]
    split
    · exact ih.trans hpopped
    · split
      · exact dispatchToRadio_acks.trans hpopped
      · exact ih.trans (dispatchToRadio_acks.trans hpopped)

theorem advanceQueue_acks : (c.advanceQueue env).pendingAcks = c.pendingAcks := advanceFrom_acks

theorem enqueueOrDispatch_acks : (c.enqueueOrDispatch env clientId p).pendingAcks = c.pendingAcks := by
  unfold enqueueOrDispatch
  split
  · exact dispatchToRadio_acks
  · rfl

theorem storeMessage_acks (msg : NewMessage) : (c.storeMessage env msg).pendingAcks = c.pendingAcks := by
  by_cases hok : env.dbOk .insertMessage = true
  · obtain ⟨_, hform, -⟩ := storeMessage_form c msg hok
    rw [hform]
    rfl
  · rw [storeMessage, if_neg hok]

theorem synthesizeEcho_acks {echo : NewMessage} : (c.synthesizeEcho env cid f echo).pendingAcks = c.pendingAcks :=
  (storeMessage_acks _).trans broadcastToOthers_talks.acks

theorem echoAccepted_acks : (c.echoAccepted env f).pendingAcks = c.pendingAcks := by
  unfold echoAccepted synthesizeContactEcho synthesizeChannelEcho
  split
  · rfl
  · split
    · split
      · split
        · rfl
        · exact synthesizeEcho_acks
      · rfl
    · split
      · split
        · rfl
        · exact synthesizeEcho_acks
      · rfl
    · rfl

theorem afterAccepted_acks : (c.afterAccepted env f).pendingAcks = c.pendingAcks := by
  unfold afterAccepted
  dsimp only
  split <;> try rfl
  · split
    · split <;> rfl
    · rfl
  · split <;> rfl
  · split <;> rfl

theorem onCommandAccepted_acks : (c.onCommandAccepted env f).pendingAcks = c.pendingAcks := by
  have hacceptance : (c.acceptance f).pendingAcks = c.pendingAcks := by
    unfold acceptance
    split
    · split
      · exact notifyMissed_talks.acks
      · rfl
    · rfl
  rw [onCommandAccepted_eq]
  exact echoAccepted_acks.trans (afterAccepted_acks.trans hacceptance)

theorem complete_acks : (c.complete env f code).pendingAcks = c.pendingAcks := by
  unfold complete
  dsimp only
  refine advanceQueue_acks.trans ?_
  split
  · exact onCommandAccepted_acks
  · rfl

theorem replayPending_acks {s : Session} {pending : List MessageId} :
    (c.replayPending env cid s pending).2.pendingAcks = c.pendingAcks := by
  induction pending generalizing c with
  | nil => rfl
  | cons id rest ih =>
    unfold replayPending
    dsimp only
    split
    · exact ih
    · dsimp only
      split
      · exact sendToClient_talks.acks
      · exact sendToClient_talks.acks

theorem replayNextMissed_acks : (c.replayNextMissed env cid).2.pendingAcks = c.pendingAcks := by
  unfold replayNextMissed
  split
  · rfl
  · dsimp only
    split <;> exact replayPending_acks

theorem serveFromRadio_acks : (c.serveFromRadio env cmd p).pendingAcks = c.pendingAcks := by
  have hcached : (c.tryServeFromCache env p.code cmd).2.pendingAcks = c.pendingAcks := tryServeFromCache_talks.acks
  unfold serveFromRadio
  dsimp only
  split
  · split
    · exact notifyMissed_talks.acks.trans hcached
    · exact hcached
  · exact enqueueOrDispatch_acks.trans hcached

theorem serveIdentified_acks : (c.serveIdentified env cmd p).pendingAcks = c.pendingAcks := by
  unfold serveIdentified
  dsimp only
  split
  · split
    · exact replayNextMissed_acks
    · exact serveFromRadio_acks.trans replayNextMissed_acks
  · exact serveFromRadio_acks

theorem recordVersion_acks : (c.recordVersion code cmd).pendingAcks = c.pendingAcks := by
  unfold recordVersion
  split
  · split <;> rfl
  · rfl

theorem registerSession_acks : (c.registerSession env cmd).pendingAcks = c.pendingAcks := by
  unfold registerSession
  dsimp only
  split <;> rfl

theorem serveCommand_acks : (c.serveCommand env cmd p).pendingAcks = c.pendingAcks := by
  rw [serveCommand_eq]
  refine serveIdentified_acks.trans (recordVersion_acks.trans ?_)
  split
  · exact registerSession_acks
  · rfl

theorem handleClientCommand_acks (h : c.handleClientCommand env cmd = .ok c₁) : c₁.pendingAcks = c.pendingAcks := by
  unfold handleClientCommand at h
  split at h
  · cases h
    rfl
  · dsimp only at h
    split at h
    · cases h
      rfl
    · obtain ⟨-, -, h⟩ := Except.of_bind_eq_ok h
      cases h
      exact serveCommand_acks

theorem kvSet_acks {key : KvKey} {value : Bytes} : (c.kvSet env key value).pendingAcks = c.pendingAcks := by
  unfold kvSet
  split <;> rfl

theorem extractRadioIdentity_acks {blob : Bytes} (h : c.extractRadioIdentity blob = .ok c₁) :
    c₁.pendingAcks = c.pendingAcks := by
  obtain ⟨d, -, h⟩ := Except.of_bind_eq_ok h
  split at h <;> cases h <;> split <;> rfl

theorem extractMaxChannels_acks {blob : Bytes} (h : c.extractMaxChannels blob = .ok c₁) :
    c₁.pendingAcks = c.pendingAcks := by
  obtain ⟨d, -, h⟩ := Except.of_bind_eq_ok h
  split at h <;> cases h
  · split <;> rfl
  · rfl

theorem cacheResponse_acks (h : c.cacheResponse env code frame = .ok c₁) : c₁.pendingAcks = c.pendingAcks := by
  unfold cacheResponse at h
  split at h
  · cases h
    split
    · unfold cacheContact
      split <;> rfl
    · rfl
  · obtain ⟨c₂, hc₂, h⟩ := Except.of_bind_eq_ok h
    cases h
    exact (extractRadioIdentity_acks hc₂).trans kvSet_acks
  · cases h
    exact kvSet_acks
  · obtain ⟨c₂, hc₂, h⟩ := Except.of_bind_eq_ok h
    cases h
    exact (extractMaxChannels_acks hc₂).trans kvSet_acks
  · obtain ⟨d, -, h⟩ := Except.of_bind_eq_ok h
    split at h <;> cases h
    · exact storeMessage_acks _
    · rfl
  · obtain ⟨d, -, h⟩ := Except.of_bind_eq_ok h
    split at h <;> cases h
    · exact storeMessage_acks _
    · rfl
  · cases h
    split
    · exact storeMessage_acks _
    · rfl
  · cases h
    split
    · exact storeMessage_acks _
    · rfl
  · cases h
    split
    · unfold cacheChannel
      split <;> rfl
    · rfl
  · cases h
    rfl

theorem recordRaw_acks : (c.recordRaw env code frame).pendingAcks = c.pendingAcks := by
  unfold recordRaw
  split <;> rfl

theorem checkInFlightTimeout_acks : (c.checkInFlightTimeout env).pendingAcks = c.pendingAcks := by
  unfold checkInFlightTimeout
  split
  · rfl
  · split
    · exact advanceQueue_acks.trans failTo_acks
    · rfl

theorem runMaintenance_acks : (c.runMaintenance env).pendingAcks = c.pendingAcks := by
  rw [runMaintenance_eq]
  unfold resync
  dsimp only
  split
  · split
    · exact advanceQueue_acks
    · rfl
  · rfl

theorem failFrom_acks : (c.failFrom qs).pendingAcks = c.pendingAcks := by
  induction qs generalizing c with
  | nil => rfl
  | cons q rest ih => exact ih.trans (failTo_acks (c := c.popped rest))

theorem failAll_acks : c.failAll.pendingAcks = c.pendingAcks := by
  unfold failAll
  dsimp only
  refine failFrom_acks.trans ?_
  split
  · exact failTo_acks
  · rfl

theorem advanceFromSync_acks : (c.advanceFromSync env qs).pendingAcks = c.pendingAcks := by
  induction qs generalizing c with
  | nil => rfl
  | cons q rest ih =>
    have hpopped : ((c.popped rest).isEligible q).2.pendingAcks = c.pendingAcks := isEligible_acks
    simp only [advanceFromSync, show { c with pendingQueue := rest } = c.popped rest from rfl]
    split
    · exact ih.trans hpopped
    · split
      · exact hpopped
      · split
        · exact failTo_acks.trans hpopped
        · exact hpopped

theorem syncFromRadio_acks : (c.syncFromRadio env).pendingAcks = c.pendingAcks := by
  have hpushes (idxs : List Nat) (c : Core) :
      (idxs.foldl (fun c idx => c.pushBack none (getChannel (UInt8.ofNat idx))) c).pendingAcks = c.pendingAcks := by
    induction idxs generalizing c with
    | nil => rfl
    | cons idx rest ih => exact ih _
  have hqueued : c.syncQueued.pendingAcks = c.pendingAcks := hpushes _ _
  rw [syncFromRadio_eq]
  split
  · exact advanceFromSync_acks.trans hqueued
  · exact hqueued

theorem waitForSelfInfo_acks {recv rest : List Recv} {ok : Bool} (h : c.waitForSelfInfo env recv = .ok (ok, rest, c₁)) :
    c₁.pendingAcks = c.pendingAcks := by
  induction recv with
  | nil =>
    cases h
    rfl
  | cons r recv ih =>
    cases r with
    | frame payload =>
      unfold waitForSelfInfo at h
      split at h
      · obtain ⟨c₂, hc₂, h⟩ := Except.of_bind_eq_ok h
        cases h
        exact cacheResponse_acks hc₂
      · obtain ⟨-, -, h⟩ := Except.of_bind_eq_ok h
        exact ih h
    | closed | deadline | shutdown =>
      cases h
      rfl

theorem waitForDeviceInfo_acks {recv rest : List Recv} {ok : Bool}
    (h : c.waitForDeviceInfo env recv = .ok (ok, rest, c₁)) : c₁.pendingAcks = c.pendingAcks := by
  induction recv with
  | nil =>
    cases h
    rfl
  | cons r recv ih =>
    cases r with
    | frame payload =>
      unfold waitForDeviceInfo at h
      split at h
      · obtain ⟨c₂, hc₂, h⟩ := Except.of_bind_eq_ok h
        cases h
        exact cacheResponse_acks hc₂
      · split at h
        · cases h
          rfl
        · obtain ⟨-, -, h⟩ := Except.of_bind_eq_ok h
          exact ih h
    | closed | deadline | shutdown =>
      cases h
      rfl

theorem initializeRadio_acks {a : Attempt} {ok : Bool} (h : c.initializeRadio a = .ok (ok, c₁)) :
    c₁.pendingAcks = c.pendingAcks := by
  unfold initializeRadio at h
  split at h
  · cases h
    rfl
  · obtain ⟨⟨ok', recv, c₂⟩, hc₂, h⟩ := Except.of_bind_eq_ok h
    have hself : c₂.pendingAcks = c.pendingAcks := waitForSelfInfo_acks (c := c.emit (.radioInit buildAppstart)) hc₂
    dsimp only at h
    split at h
    · cases h
      exact hself
    · split at h
      · cases h
        exact hself
      · obtain ⟨⟨ok'', recv', c₃⟩, hc₃, h⟩ := Except.of_bind_eq_ok h
        cases h
        exact (waitForDeviceInfo_acks hc₃).trans hself

theorem attemptRadio_acks {a : Attempt} {ok : Bool} (h : c.attemptRadio a = .ok (ok, c₁)) :
    c₁.pendingAcks = c.pendingAcks := by
  unfold attemptRadio at h
  split at h
  · cases h
    rfl
  · obtain ⟨⟨ok', c₂⟩, hc₂, h⟩ := Except.of_bind_eq_ok h
    have hinit : c₂.pendingAcks = c.pendingAcks := initializeRadio_acks (c := { c with radioSendTx := true }) hc₂
    dsimp only at h
    split at h
    · cases h
      exact syncFromRadio_acks.trans hinit
    · cases h
      exact hinit

theorem reconnectLoop_acks {attempts : List Attempt} (h : c.reconnectLoop attempts = .ok c₁) :
    c₁.pendingAcks = c.pendingAcks := by
  induction attempts generalizing c with
  | nil =>
    cases h
    rfl
  | cons a rest ih =>
    obtain ⟨⟨ok, c₂⟩, hc₂, h⟩ := Except.of_bind_eq_ok h
    have hattempt := attemptRadio_acks hc₂
    cases ok with
    | true =>
      cases h
      exact hattempt
    | false => exact (ih h).trans hattempt

theorem restoreBlobs_acks (h : c.restoreBlobs env = .ok c₁) : c₁.pendingAcks = c.pendingAcks := by
  obtain ⟨c₂, hc₂, h⟩ := Except.of_bind_eq_ok h
  obtain ⟨c₃, hc₃, h⟩ := Except.of_bind_eq_ok h
  cases h
  have hself : c₂.pendingAcks = c.pendingAcks := by
    unfold restoreSelfInfo at hc₂
    split at hc₂
    · obtain ⟨c', hc', hc₂⟩ := Except.of_bind_eq_ok hc₂
      cases hc₂
      have hsame : c'.pendingAcks = c.pendingAcks := extractRadioIdentity_acks hc'
      exact hsame
    · cases hc₂
      rfl
  have hdevice : c₃.pendingAcks = c₂.pendingAcks := by
    unfold restoreDeviceInfo at hc₃
    split at hc₃
    · obtain ⟨c', hc', hc₃⟩ := Except.of_bind_eq_ok hc₃
      cases hc₃
      have hsame : c'.pendingAcks = c₂.pendingAcks := extractMaxChannels_acks hc'
      exact hsame
    · cases hc₃
      rfl
  refine Eq.trans ?_ (hdevice.trans hself)
  unfold restoreBatteryInfo
  split <;> rfl

theorem start_acks {config : Config} {db : NodeState} {first : Attempt} {attempts : List Attempt}
    (h : (Core.new config db).start env first attempts = .ok c) : c.pendingAcks = ∅ := by
  obtain ⟨⟨ok, c₁⟩, hc₁, h⟩ := Except.of_bind_eq_ok h
  have hfirst : c₁.pendingAcks = ∅ := attemptRadio_acks hc₁
  dsimp only at h
  split at h
  · exact (restoreBlobs_acks h).trans hfirst
  · obtain ⟨c₂, hc₂, h⟩ := Except.of_bind_eq_ok h
    exact (restoreBlobs_acks h).trans ((reconnectLoop_acks hc₂).trans (failAll_acks.trans hfirst))

/-! ### What a turn does to them -/

/-- The pending ACKs when a MSG_SENT announced one for a client. -/
def announced (c : Core) (env : Env) (cid : ClientId) (frame : Bytes) : Table Bytes (ClientId × Nat) :=
  (c.pendingAcks.retain fun _ e => decide (env.now - e.2 < pendingAckTtl)).insert ((frame.drop 2).take 4) (cid, env.now)

/-- A MSG_SENT announces an ACK to the client whose request it belongs to. -/
def AnnouncedBy (c : Core) (frame : Bytes) (cid : ClientId) : Prop := frame.head? = some 0x06 ∧ 6 ≤ frame.length ∧
  ∃ f, c.inFlight = some f ∧ f.clientId = some cid ∧ (f.awaiting.classify 0x06).1 = true

/-- A frame is an ACK. -/
def IsAck (frame : Bytes) : Prop := frame.head? = some 0x82 ∧ 5 ≤ frame.length

theorem classify_ack (p : Command) : ((awaitingFor p).classify 0x82).1 = false := by
  unfold awaitingFor
  split <;> try rfl
  split <;> rfl

theorem recordAck_acks {t : Ticket} : (c.recordAck env cid t code frame).pendingAcks =
    if code = 0x06 ∧ 6 ≤ frame.length then c.announced env cid frame else c.pendingAcks := by
  unfold recordAck
  split <;> rfl

theorem deliverReply_acks (hclient : f.clientId = some cid) : (c.deliverReply env f code frame).pendingAcks =
    if code = 0x06 ∧ 6 ≤ frame.length then c.announced env cid frame else c.pendingAcks := by
  have hreply : (c.replyToClient env f code frame).pendingAcks =
      if code = 0x06 ∧ 6 ≤ frame.length then c.announced env cid frame else c.pendingAcks := by
    unfold replyToClient
    rw [hclient]
    exact sendToClient_talks.acks.trans recordAck_acks
  rw [deliverReply_eq]
  split
  · exact broadcastToOthers_talks.acks.trans hreply
  · exact hreply

theorem deliverReply_acks_internal (hclient : f.clientId = none) :
    (c.deliverReply env f code frame).pendingAcks = c.pendingAcks := by
  have hreply : c.replyToClient env f code frame = c := by
    unfold replyToClient
    rw [hclient]
  rw [deliverReply_eq, hreply]
  split
  · exact broadcastToOthers_talks.acks
  · rfl

theorem refreshOnPush_acks : (c.refreshOnPush env code frame).pendingAcks = c.pendingAcks := by
  unfold refreshOnPush
  split
  · dsimp only
    split
    · exact advanceQueue_acks
    · rfl
  · rfl

theorem routeUnmatched_acks (hack : ¬(code = 0x82 ∧ 5 ≤ frame.length)) :
    (c.routeUnmatched env code frame).pendingAcks = c.pendingAcks := by
  have hno : c.tryRouteAck code frame = (false, c) := dif_neg hack
  unfold routeUnmatched
  rw [hno]
  dsimp only
  split
  · rename_i h
    cases h
  · split
    · exact refreshOnPush_acks
    · rfl

/-- An ACK goes to the client it was announced to, or to everybody. -/
theorem routeUnmatched_ack (hcode : code = 0x82) (hlen : 5 ≤ frame.length) : c.routeUnmatched env code frame =
    match c.pendingAcks.lookup ((frame.drop 1).take 4) with
    | some (cid, _) => { c with pendingAcks := c.pendingAcks.erase ((frame.drop 1).take 4) }.sendToClient cid frame .ack
    | none => c.emit (.broadcast frame) := by
  have hroute : c.tryRouteAck code frame = match c.pendingAcks.lookup ((frame.drop 1).take 4) with
      | some (cid, _) =>
        (true, { c with pendingAcks := c.pendingAcks.erase ((frame.drop 1).take 4) }.sendToClient cid frame .ack)
      | none => (false, c) := dif_pos ⟨hcode, hlen⟩
  subst hcode
  unfold routeUnmatched
  rw [hroute]
  cases c.pendingAcks.lookup ((frame.drop 1).take 4) with
  | none => rfl
  | some e => rfl

/-- What a frame of the radio does to the pending ACKs. -/
theorem handleRadioRx_acks (hawaiting : ∀ f, c.inFlight = some f → f.awaiting = awaitingFor f.payload)
    (h : c.handleRadioRx env frame = .ok c₁) :
    (IsAck frame ∧ c₁.pendingAcks = c.pendingAcks.erase ((frame.drop 1).take 4)) ∨
    (∃ cid, c.AnnouncedBy frame cid ∧ c₁.pendingAcks = c.announced env cid frame) ∨
    (¬IsAck frame ∧ (∀ cid, ¬c.AnnouncedBy frame cid) ∧ c₁.pendingAcks = c.pendingAcks) := by
  unfold handleRadioRx at h
  split at h
  · cases h
    refine Or.inr (Or.inr ⟨fun hack => ?_, fun _ hsent => ?_, rfl⟩)
    · cases hack.1
    · cases hsent.1
  · rename_i code rest
    obtain ⟨-, -, h⟩ := Except.of_bind_eq_ok h
    obtain ⟨c', hc', h⟩ := Except.of_bind_eq_ok h
    cases h
    have hkept : Kept (Effect.Side none) c c' := cacheResponse_kept hc'
    have hslot : (c'.recordRaw env code (code :: rest)).inFlight = c.inFlight :=
      (recordRaw_still (p := fun _ => True)).slot.trans hkept.slot
    have hacks : (c'.recordRaw env code (code :: rest)).pendingAcks = c.pendingAcks :=
      recordRaw_acks.trans (cacheResponse_acks hc')
    have hannounced (cid : ClientId) : (c'.recordRaw env code (code :: rest)).announced env cid (code :: rest) =
        c.announced env cid (code :: rest) := by rw [Core.announced, Core.announced, hacks]
    generalize c'.recordRaw env code (code :: rest) = c₂ at hslot hacks hannounced
    have hunmatched (hno : ∀ f, c.inFlight = some f → (f.awaiting.classify code).1 = false)
        (hrouted : c₂.routeFrame env code (code :: rest) = c₂.routeUnmatched env code (code :: rest)) :
        (IsAck (code :: rest) ∧ (c₂.routeFrame env code (code :: rest)).pendingAcks =
          c.pendingAcks.erase (((code :: rest).drop 1).take 4)) ∨
        (¬IsAck (code :: rest) ∧ (∀ cid, ¬c.AnnouncedBy (code :: rest) cid) ∧
          (c₂.routeFrame env code (code :: rest)).pendingAcks = c.pendingAcks) := by
      rw [hrouted]
      by_cases hack : code = 0x82 ∧ 5 ≤ (code :: rest).length
      · refine Or.inl ⟨⟨congrArg some hack.1, hack.2⟩, ?_⟩
        rw [routeUnmatched_ack hack.1 hack.2, hacks]
        split
        · exact sendToClient_talks.acks
        · rename_i hnone
          have habsent : (c.pendingAcks.erase (((code :: rest).drop 1).take 4)) = c.pendingAcks :=
            AList.ext (List.kerase_of_notMem_keys (AList.lookup_eq_none.mp (hacks ▸ hnone)))
          exact hacks.trans habsent.symm
      · refine Or.inr ⟨fun h => hack ⟨Option.some.inj h.1, h.2⟩, fun cid h => ?_,
          (routeUnmatched_acks hack).trans hacks⟩
        obtain ⟨hcode, -, f, hf, -, hmatches⟩ := h
        obtain rfl : code = 0x06 := Option.some.inj hcode
        rw [hno f hf] at hmatches
        cases hmatches
    have hmatched {f : InFlight} {b : Bool} (hf : c.inFlight = some f)
        (hmatches : f.awaiting.classify code = (true, b)) {c₃ : Core}
        (h : c₃.pendingAcks = (c₂.deliverReply env f code (code :: rest)).pendingAcks) :
        (∃ cid, c.AnnouncedBy (code :: rest) cid ∧ c₃.pendingAcks = c.announced env cid (code :: rest)) ∨
        (¬IsAck (code :: rest) ∧ (∀ cid, ¬c.AnnouncedBy (code :: rest) cid) ∧ c₃.pendingAcks = c.pendingAcks) := by
      have hno : ¬IsAck (code :: rest) := fun hack => by
        obtain rfl : code = 0x82 := Option.some.inj hack.1
        have hclass := classify_ack f.payload
        rw [← hawaiting f hf, hmatches] at hclass
        cases hclass
      cases hclient : f.clientId with
      | none =>
        refine Or.inr ⟨hno, fun cid hsent => ?_, h.trans ((deliverReply_acks_internal hclient).trans hacks)⟩
        obtain ⟨-, -, f', hf', hclient', -⟩ := hsent
        cases hf.symm.trans hf'
        cases hclient.symm.trans hclient'
      | some cid =>
        rw [deliverReply_acks hclient, hannounced, hacks] at h
        by_cases hsent : code = 0x06 ∧ 6 ≤ (code :: rest).length
        · rw [if_pos hsent] at h
          obtain ⟨rfl, hlen⟩ := hsent
          exact Or.inl ⟨cid, ⟨rfl, hlen, f, hf, hclient, congrArg Prod.fst hmatches⟩, h⟩
        · rw [if_neg hsent] at h
          exact Or.inr ⟨hno, fun cid h => hsent ⟨Option.some.inj h.1, h.2.1⟩, h⟩
    cases hf : c.inFlight with
    | none =>
      refine (hunmatched (fun f h => by rw [hf] at h; cases h) ?_).imp_right Or.inr
      rw [routeFrame_eq, hslot, hf]
    | some f =>
      rcases hclass : f.awaiting.classify code with ⟨_ | _, b⟩
      · refine (hunmatched (fun f' h => ?_) ?_).imp_right Or.inr
        · cases hf.symm.trans h
          rw [hclass]
        · rw [routeFrame_eq, hslot, hf]
          dsimp only
          rw [hclass]
      · refine Or.inr (hmatched hf hclass ?_)
        rw [routeFrame_eq, hslot, hf]
        dsimp only
        rw [hclass]
        cases b with
        | true => exact complete_acks
        | false => rfl

end

/-! ### Runs -/

/-- The turn routes a MSG_SENT that announces the ACK to a client's request. -/
def Lap.Announces (s : Lap) (ack : Bytes) (cid : ClientId) (time : Nat) : Prop :=
  ∃ env frame, s.event = .radio env frame ∧ s.before.AnnouncedBy frame cid ∧ (frame.drop 2).take 4 = ack ∧
    env.now = time

/-- The turn handles the ACK. -/
def Lap.Acknowledges (s : Lap) (ack : Bytes) : Prop :=
  ∃ env frame, s.event = .radio env frame ∧ IsAck frame ∧ (frame.drop 1).take 4 = ack

/-- What time it is in a turn. -/
def Event.instant : Event → Option Nat
  | .command env _ | .radio env _ | .timeoutTick env | .maintenanceTick env => some env.now
  | .disconnected _ | .idle => none

/-- Time does not run backwards. -/
def Ticking (l : List Lap) : Prop := l.Pairwise fun s u => ∀ n ∈ s.event.instant, ∀ m ∈ u.event.instant, n ≤ m

section
variable {c c₀ c₁ : Core} {s : Lap} {l : List Lap} {ack frame : Bytes} {code : UInt8} {cid : ClientId}
  {time : Nat} {env env₀ : Env} {config : Config}
  {db : NodeState} {first : Attempt} {attempts : List Attempt}

theorem step_acks {frontend : List (List FrontendOp)} {e : Event} (h : c.step frontend e = .ok c₁)
    (he : ∀ env frame, e ≠ .radio env frame) : c₁.pendingAcks = c.pendingAcks := by
  cases e with
  | command env cmd => exact handleClientCommand_acks (c := c.begin frontend) h
  | radio env frame => exact absurd rfl (he env frame)
  | timeoutTick env =>
    cases h
    exact checkInFlightTimeout_acks
  | maintenanceTick env =>
    cases h
    exact runMaintenance_acks
  | disconnected attempts => exact (reconnectLoop_acks h).trans failAll_acks
  | idle =>
    cases h
    rfl

/-- An ACK is pending after a turn that announced it, or if it was and no turn acknowledged it, announced it again
    or swept it. -/
theorem Lap.pending_iff (hawaiting : ∀ f, s.before.inFlight = some f → f.awaiting = awaitingFor f.payload)
    (h : s.before.step s.frontend s.event = .ok s.after) : s.after.pendingAcks.lookup ack = some (cid, time) ↔
      s.Announces ack cid time ∨ s.before.pendingAcks.lookup ack = some (cid, time) ∧ ¬s.Acknowledges ack ∧
        ∀ ack' cid' time', s.Announces ack' cid' time' → ack' ≠ ack ∧ time' - time < pendingAckTtl := by
  by_cases hevent : ∃ env frame, s.event = .radio env frame
  · obtain ⟨env, frame, he⟩ := hevent
    have hs : (s.before.begin s.frontend).handleRadioRx env frame = .ok s.after := by
      rw [he] at h
      exact h
    have hannounces {ack' : Bytes} {cid' : ClientId} {time' : Nat} : s.Announces ack' cid' time' ↔
        s.before.AnnouncedBy frame cid' ∧ (frame.drop 2).take 4 = ack' ∧ env.now = time' := by
      constructor
      · rintro ⟨env', frame', he', hsent⟩
        cases he.symm.trans he'
        exact hsent
      · exact fun hsent => ⟨env, frame, he, hsent⟩
    have hacks {ack' : Bytes} : s.Acknowledges ack' ↔ IsAck frame ∧ (frame.drop 1).take 4 = ack' := by
      constructor
      · rintro ⟨env', frame', he', hack⟩
        cases he.symm.trans he'
        exact hack
      · exact fun hack => ⟨env, frame, he, hack⟩
    rcases handleRadioRx_acks (c := s.before.begin s.frontend) hawaiting hs with ⟨hack, hafter⟩ |
      ⟨cid', hsent, hafter⟩ | ⟨hno, hnone, hafter⟩
    · have hnone (cid' : ClientId) : ¬s.before.AnnouncedBy frame cid' := fun hsent => by
        cases hack.1.symm.trans hsent.1
      have hnone' : ∀ ack' cid' time', ¬s.Announces ack' cid' time' := fun _ cid' _ h => hnone cid' (hannounces.mp h).1
      rw [hafter, Table.lookup_erase_eq, hacks, or_iff_right (hnone' _ _ _)]
      show (if ack = _ then none else s.before.pendingAcks.lookup ack) = _ ↔ _
      split
      · rename_i heq
        exact iff_of_false nofun fun h => h.2.1 ⟨hack, heq.symm⟩
      · rename_i hne
        constructor
        · exact fun h => ⟨h, fun hsame => hne hsame.2.symm, fun _ _ _ h => absurd h (hnone' _ _ _)⟩
        · exact fun h => h.1
    · have hsent' : s.before.AnnouncedBy frame cid' := hsent
      have hone {cid'' : ClientId} (h : s.before.AnnouncedBy frame cid'') : cid'' = cid' := by
        obtain ⟨-, -, f, hf, hclient, -⟩ := h
        obtain ⟨-, -, f', hf', hclient', -⟩ := hsent'
        cases hf.symm.trans hf'
        exact Option.some.inj (hclient.symm.trans hclient')
      have hno : ¬s.Acknowledges ack := fun h => by cases (hacks.mp h).1.1.symm.trans hsent.1
      rw [hafter, announced, Table.lookup_insert_eq, hannounces]
      split
      · rename_i heq
        constructor
        · intro h
          cases h
          exact Or.inl ⟨hsent', heq.symm, rfl⟩
        · rintro (⟨h, -, rfl⟩ | ⟨-, -, h⟩)
          · rw [hone h]
          · exact absurd heq.symm (h _ _ _ (hannounces.mpr ⟨hsent', rfl, rfl⟩)).1
      · rename_i hne
        rw [Table.lookup_retain_eq_some, or_iff_right fun h => hne h.2.1.symm, and_iff_right hno, decide_eq_true_eq]
        refine and_congr_right fun _ => ⟨fun hfresh ack' _ time' h => ?_, fun h => ?_⟩
        · obtain ⟨-, rfl, rfl⟩ := hannounces.mp h
          exact ⟨Ne.symm hne, hfresh⟩
        · exact (h _ _ _ (hannounces.mpr ⟨hsent', rfl, rfl⟩)).2
    · have hnone' : ∀ ack' cid' time', ¬s.Announces ack' cid' time' := fun _ cid' _ h => hnone cid' (hannounces.mp h).1
      rw [hafter, or_iff_right (hnone' _ _ _)]
      constructor
      · exact fun h => ⟨h, fun hack => hno (hacks.mp hack).1, fun _ _ _ h => absurd h (hnone' _ _ _)⟩
      · exact fun h => h.1
  · have hno : ∀ env frame, s.event ≠ .radio env frame := fun env frame he => hevent ⟨env, frame, he⟩
    have hnone : ∀ ack' cid' time', ¬s.Announces ack' cid' time' := by
      rintro _ _ _ ⟨env, frame, he, -⟩
      exact hno env frame he
    rw [step_acks h hno, or_iff_right (hnone _ _ _)]
    constructor
    · refine fun h => ⟨h, ?_, fun _ _ _ h => absurd h (hnone _ _ _)⟩
      rintro ⟨env, frame, he, -⟩
      exact hno env frame he
    · exact fun h => h.1

/-- Which ACKs are pending after a run, and for whom. -/
theorem Trace.pending_iff (hstart : (Core.new config db).start env first attempts = .ok c₀) (h : Trace c₀ l c) :
    c.pendingAcks.lookup ack = some (cid, time) ↔
    Since (fun s => s.Announces ack cid time) (fun s => ¬s.Acknowledges ack ∧
      ∀ ack' cid' time', s.Announces ack' cid' time' → ack' ≠ ack ∧ time' - time < pendingAckTtl) l := by
  induction l using List.reverseRecOn generalizing c with
  | nil =>
    cases h
    rw [start_acks hstart]
    exact iff_of_false nofun not_since_nil
  | append_singleton l s ih =>
    obtain ⟨hbefore, hs, hnil⟩ := h.split
    cases hnil
    rw [since_concat, ← ih hbefore]
    exact Lap.pending_iff (Trace.accounted hstart hbefore).awaiting hs

theorem recordRaw_speakers : (c.recordRaw env code frame).out = c.out ∧
    (c.recordRaw env code frame).sessions = c.sessions ∧
    (c.recordRaw env code frame).protocolVersions = c.protocolVersions := by
  unfold recordRaw
  split <;> exact ⟨rfl, rfl, rfl⟩

/-- The turn that handles an ACK sends it to the client it is pending for, or to everybody. -/
theorem acknowledged (hawaiting : ∀ f, s.before.inFlight = some f → f.awaiting = awaitingFor f.payload)
    (h : s.before.step s.frontend s.event = .ok s.after) (he : s.event = .radio env frame) (hack : IsAck frame) :
    s.after.out = match s.before.pendingAcks.lookup ((frame.drop 1).take 4) with
      | some (cid, _) => if cid ∈ s.after.clients.channels then
          [.client cid (s.before.identityOf cid) (s.before.protocolVersion cid) frame .ack] else []
      | none => [.broadcast frame] := by
  obtain ⟨hcode, hlen⟩ := hack
  obtain ⟨rest, rfl⟩ := List.head?_eq_some_iff.mp hcode
  rw [he] at h
  obtain ⟨-, -, h⟩ :=
    Except.of_bind_eq_ok (show (s.before.begin s.frontend).handleRadioRx env (0x82 :: rest) = .ok s.after from h)
  obtain ⟨c', hc', h⟩ := Except.of_bind_eq_ok h
  obtain rfl : s.before.begin s.frontend = c' := Except.ok.inj hc'
  generalize hc₂ : (s.before.begin s.frontend).recordRaw env 0x82 (0x82 :: rest) = c₂ at h
  obtain ⟨hout, hsessions, hversions⟩ : c₂.out = [] ∧ c₂.sessions = s.before.sessions ∧
      c₂.protocolVersions = s.before.protocolVersions :=
    hc₂ ▸ recordRaw_speakers
  have hslot : c₂.inFlight = s.before.inFlight := hc₂ ▸ (recordRaw_still (p := fun _ => True)).slot
  have hacks : c₂.pendingAcks = s.before.pendingAcks := hc₂ ▸ recordRaw_acks
  have hrouted : c₂.routeFrame env 0x82 (0x82 :: rest) = c₂.routeUnmatched env 0x82 (0x82 :: rest) := by
    rw [routeFrame_eq, hslot]
    cases hf : s.before.inFlight with
    | none => rfl
    | some f =>
      have hclass := classify_ack f.payload
      rw [← hawaiting f hf] at hclass
      rcases hsplit : f.awaiting.classify 0x82 with ⟨_ | _, b⟩
      · dsimp only
        rw [hsplit]
      · rw [hsplit] at hclass
        cases hclass
  have hafter : c₂.routeUnmatched env 0x82 (0x82 :: rest) = s.after := hrouted.symm.trans (Except.ok.inj h)
  rw [routeUnmatched_ack rfl hlen, hacks] at hafter
  split at hafter
  · rename_i cid time _
    rw [← hafter, sendToClient_out]
    show c₂.out ++ (if _ then [_] else []) = _
    rw [hout]
    have hidentity : c₂.identityOf cid = s.before.identityOf cid := by rw [identityOf, hsessions]; rfl
    have hversion : c₂.protocolVersion cid = s.before.protocolVersion cid := by rw [protocolVersion, hversions]; rfl
    show [] ++ (if _ then [Effect.client cid (c₂.identityOf cid) (c₂.protocolVersion cid) (0x82 :: rest) .ack]
      else []) = _
    rw [hidentity, hversion, List.nil_append]
  · rw [← hafter]
    show c₂.out ++ [_] = _
    rw [hout]
    rfl

/-- An ACK goes to the client whose request got the last MSG_SENT that announced it, if none came since and that was
    less than 300 s ago; and to everybody, if no client's request got one since the last ACK. -/
theorem ack_routed (hstart : (Core.new config db).start env₀ first attempts = .ok c₀) (htrace : Trace c₀ (l ++ [s]) c)
    (hticking : Ticking (l ++ [s])) (he : s.event = .radio env frame) (hack : IsAck frame)
    (heq : (frame.drop 1).take 4 = ack) :
    (∀ cid time, Since (fun u => u.Announces ack cid time) (fun u => ¬u.Acknowledges ack ∧
      ∀ cid' time', ¬u.Announces ack cid' time') l →
      env.now < time + pendingAckTtl → s.after.out = if cid ∈ s.after.clients.channels then
        [.client cid (s.before.identityOf cid) (s.before.protocolVersion cid) frame .ack] else []) ∧
    ((∀ cid time, ¬Since (fun u => u.Announces ack cid time) (fun u => ¬u.Acknowledges ack) l) →
      s.after.out = [.broadcast frame]) := by
  obtain ⟨hbefore, hs, -⟩ := htrace.split
  have hout := acknowledged (Trace.accounted hstart hbefore).awaiting hs he hack
  rw [heq] at hout
  constructor
  · intro cid time hsince hage
    have hpending : s.before.pendingAcks.lookup ack = some (cid, time) := by
      refine (Trace.pending_iff hstart hbefore).mpr
        (hsince.mono (fun _ _ h => h) fun u hu h => ⟨h.1, fun ack' cid' time' hu' => ⟨?_, ?_⟩⟩)
      · rintro rfl
        exact h.2 cid' time' hu'
      · obtain ⟨env', frame', he', -, -, rfl⟩ := hu'
        have hle : env'.now ≤ env.now := by
          refine (List.pairwise_append.mp hticking).2.2 u hu s (List.mem_singleton.mpr rfl) env'.now ?_ env.now ?_
          · rw [he']
            rfl
          · rw [he]
            rfl
        unfold pendingAckTtl at hage ⊢
        omega
    rw [hout, hpending]
  · intro hnone
    cases hpending : s.before.pendingAcks.lookup ack with
    | none => rw [hout, hpending]
    | some e =>
      refine absurd (((Trace.pending_iff hstart hbefore).mp hpending).mono (fun _ _ h => h) fun u _ h => h.1)
        (hnone e.1 e.2)

theorem ack_routed_once_run : Except.Holds (do
    let c₀ ← fresh
    let (t, c₁) ←
        c₀.laps (filled ++ [([[.connect]], .command sound ⟨1, 5000, [0x02, 0, 0, 0, 0, 0, 0, 1, 2, 3, 4, 5, 6, 0x68]⟩)])
    let c₂ ← c₁.step [] (.radio sound [0x06, 0, 1, 2, 3, 4])
    let c₃ ← c₂.step [] (.radio sound [0x82, 1, 2, 3, 4])
    return (c₀, t, c₁, c₂, c₃)) fun (_, _, c₁, _, c₃) =>
      (∃ f ∈ c₁.inFlight, f.clientId = some 1 ∧ (f.awaiting.classify 0x06).1 = true) ∧ 1 ∈ c₃.clients.channels := by
  decide +kernel

/-- Client 1 sends a message to a contact, and the ACK that its MSG_SENT announced comes. -/
theorem ack_routed_once : ∃ c₀ l s c, fresh = .ok c₀ ∧ Trace c₀ (l ++ [s]) c ∧
    s.event = .radio sound [0x82, 1, 2, 3, 4] ∧
    s.after.out = [.client 1 (s.before.identityOf 1) (s.before.protocolVersion 1) [0x82, 1, 2, 3, 4] .ack] := by
  obtain ⟨⟨c₀, t, c₁, c₂, c₃⟩, hrun, ⟨f, hf, hclient, hmatches⟩, hconnected⟩ := ack_routed_once_run
  obtain ⟨_, hboot, hrun⟩ := Except.of_bind_eq_ok hrun
  obtain ⟨⟨_, _⟩, hlaps, hrun⟩ := Except.of_bind_eq_ok hrun
  obtain ⟨_, h₁, hrun⟩ := Except.of_bind_eq_ok hrun
  obtain ⟨_, h₂, hrun⟩ := Except.of_bind_eq_ok hrun
  cases hrun
  obtain ⟨htrace, hturns⟩ := Trace.of_laps hlaps
  let u : Lap := ⟨c₁, [], .radio sound [0x06, 0, 1, 2, 3, 4], c₂⟩
  let s : Lap := ⟨c₂, [], .radio sound [0x82, 1, 2, 3, 4], c₃⟩
  have hrun : Trace c₀ (t ++ [u] ++ [s]) c₃ := (htrace.append (.cons h₁ (.nil _))).append (.cons h₂ (.nil _))
  have hturn :
      ∀ turn ∈ filled ++ [([[.connect]], .command sound ⟨1, 5000, [0x02, 0, 0, 0, 0, 0, 0, 1, 2, 3, 4, 5, 6, 0x68]⟩)],
      ∀ n ∈ turn.2.instant, n = 0 := by simp [filled, Event.instant, sound, soundAt]
  have hnow : ∀ v ∈ t ++ [u] ++ [s], ∀ n ∈ v.event.instant, n = 0 := by
    rw [List.forall_mem_append, List.forall_mem_append, List.forall_mem_singleton, List.forall_mem_singleton]
    exact ⟨⟨fun v hv => hturn _ (hturns v hv), by simp [u, Event.instant, sound, soundAt]⟩,
      by simp [s, Event.instant, sound, soundAt]⟩
  have hannounces : u.Announces [1, 2, 3, 4] 1 0 :=
    ⟨sound, _, rfl, ⟨rfl, by decide, f, hf, hclient, hmatches⟩, rfl, rfl⟩
  refine ⟨c₀, t ++ [u], s, c₃, hboot, hrun, rfl, ?_⟩
  rw [(ack_routed hboot hrun ?_ rfl ⟨rfl, by decide⟩ rfl).1 1 0 (since_concat.mpr (Or.inl hannounces)) (by decide),
    if_pos hconnected]
  exact List.pairwise_of_forall_mem_list fun a ha b hb n hn m hm => by rw [hnow a ha n hn, hnow b hb m hm]

end
end Core
end CoreSplitter
