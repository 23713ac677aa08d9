import CoreSplitter.Theorems.Sent
import CoreSplitter.Theorems.Panics

/-! Who is sent how many copies of a frame, and what becomes of a message that one client polls off the radio. -/

namespace CoreSplitter
open Bytes

/-! ### Copies -/

/-- The frames that a client is sent. -/
def framesTo (cid : ClientId) (h : List Effect) : List Bytes :=
  h.filterMap fun | .client cid' _ _ frame _ => if cid' = cid then some frame else none | _ => none

section
variable {h h' : List Effect} {cid : ClientId}

@[simp] theorem framesTo_append : framesTo cid (h ++ h') = framesTo cid h ++ framesTo cid h' := List.filterMap_append

theorem mem_framesTo {frame : Bytes} : frame ∈ framesTo cid h ↔
    ∃ who version why, .client cid who version frame why ∈ h := by
  simp only [framesTo, List.mem_filterMap]
  constructor
  · rintro ⟨e, he, hframe⟩
    cases e with
    | client cid' who version frame' why =>
      simp only [Option.ite_none_right_eq_some, Option.some.injEq] at hframe
      obtain ⟨rfl, rfl⟩ := hframe
      exact ⟨who, version, why, he⟩
    | _ => cases hframe
  · rintro ⟨who, version, why, he⟩
    exact ⟨_, he, if_pos rfl⟩

end

namespace Core

/-- What a client is sent from `c` to `c₁`. -/
def Adds (cid : ClientId) (frames : List Bytes) (c c₁ : Core) : Prop :=
  framesTo cid c₁.out = framesTo cid c.out ++ frames

section
variable {cid : ClientId} {frames frames' : List Bytes} {v : ClientId → UInt8} {P : Audience}
  {q : ClientId → Why → Bytes → Prop} {c c₁ c₂ : Core} {payload : Bytes} {why : Why}

theorem Adds.of_out (h : c₁.out = c.out) : Adds cid [] c c₁ := by rw [Adds, h, List.append_nil]

theorem Adds.trans (h₁ : Adds cid frames c c₁) (h₂ : Adds cid frames' c₁ c₂) : Adds cid (frames ++ frames') c c₂ := by
  rw [Adds, h₂, h₁, List.append_assoc]

theorem emit_adds {e : Effect} (h : framesTo cid [e] = []) : Adds cid [] c (c.emit e) := by
  rw [Adds, emit, framesTo_append, h]

theorem Speaks.adds (h : Speaks v P q c c₁) (cid : ClientId) : ∃ frames, Adds cid frames c c₁ ∧
    ∀ frame ∈ frames, ∃ why payload, frame = messageFrameFor (v cid) payload ∧ q cid why payload := by
  obtain ⟨es, hout, hes⟩ := h.out
  refine ⟨framesTo cid es, by rw [Adds, hout, framesTo_append], fun frame hframe => ?_⟩
  obtain ⟨who, version, why, he⟩ := mem_framesTo.mp hframe
  obtain ⟨rfl, -, payload, rfl, hq⟩ := hes _ he
  exact ⟨why, payload, rfl, hq⟩

theorem Speaks.silent (h : Speaks v P (fun _ _ _ => False) c c₁) : Adds cid [] c c₁ := by
  obtain ⟨frames, hadds, hframes⟩ := h.adds cid
  have hnil : frames = [] := List.eq_nil_iff_forall_not_mem.mpr fun frame hframe => by
    obtain ⟨-, -, -, h⟩ := hframes frame hframe
    exact h
  exact hnil ▸ hadds

theorem sendToClient_adds {cid' : ClientId} (ht : Told v P c) :
    Adds cid (if cid' = cid ∧ cid ∈ c.lockClients.clients.channels then [messageFrameFor (v cid) payload] else []) c
      (c.sendToClient cid' payload why) := by
  have hlock : Told v P c.lockClients := ht.lock
  unfold sendToClient
  dsimp only
  by_cases hcid : cid' = cid
  · subst hcid
    by_cases hmem : cid' ∈ c.lockClients.clients.channels
    · rw [if_pos (List.contains_iff_mem.mpr hmem), if_pos ⟨rfl, hmem⟩, ← hlock.connected cid' hmem]
      simp [Adds, emit, delivery, framesTo, lockClients]
    · rw [if_neg (fun h => hmem (List.contains_iff_mem.mp h)), if_neg (fun h => hmem h.2)]
      exact .of_out rfl
  · rw [if_neg (fun h => hcid h.1)]
    split
    · refine emit_adds ?_
      simp [delivery, framesTo, hcid]
    · exact .of_out rfl

theorem framesTo_deliveries {l : List ClientId} (hnodup : l.Nodup) :
    framesTo cid (l.map fun cid => c.delivery cid payload why) =
      if cid ∈ l then [messageFrameFor (c.protocolVersion cid) payload] else [] := by
  induction l with
  | nil => rfl
  | cons cid' l ih =>
    obtain ⟨hfresh, hnodup⟩ := List.nodup_cons.mp hnodup
    rw [List.map_cons, ← List.singleton_append, framesTo_append, ih hnodup]
    by_cases hcid : cid' = cid
    · subst hcid
      simp [framesTo, delivery, hfresh]
    · have hne : cid ≠ cid' := Ne.symm hcid
      simp [framesTo, delivery, hcid, hne]

theorem broadcastToOthers_adds {exclude : Option ClientId} (ht : Told v P c) :
    Adds cid (if exclude ≠ some cid ∧ cid ∈ c.lockClients.clients.channels then [messageFrameFor (v cid) payload]
      else []) c (c.broadcastToOthers exclude payload why) := by
  have hlock : Told v P c.lockClients := ht.lock
  have hout : (c.broadcastToOthers exclude payload why).out = c.out ++
      (c.lockClients.clients.channels.filter fun cid => exclude != some cid).map fun cid =>
        c.lockClients.delivery cid payload why := rfl
  rw [Adds, hout, framesTo_append, framesTo_deliveries (hlock.valid.nodup.filter _)]
  by_cases hmem : cid ∈ c.lockClients.clients.channels
  · by_cases hother : exclude = some cid
    · simp [hother]
    · simp [hother, hmem, hlock.connected cid hmem]
  · simp [hmem]

end

/-! ### The reply that completes a request -/

section
variable {v : ClientId → UInt8} {P : Audience} {c c₁ : Core} {env : Env} {f : InFlight} {code : UInt8} {frame : Bytes}

theorem handleRadioRx_completed (h : c.handleRadioRx env frame = .ok c₁) (hslot : c.inFlight = some f)
    (hcode : frame.head? = some code) (hends : f.awaiting.classify code = (true, true)) :
    ∃ c', c.cacheResponse env code frame = .ok c' ∧
      c₁ = ((c'.recordRaw env code frame).deliverReply env f code frame).complete env f code := by
  unfold handleRadioRx at h
  split at h
  · cases hcode
  · rename_i code' rest
    obtain rfl : code' = code := Option.some.inj hcode
    obtain ⟨-, -, h⟩ := Except.of_bind_eq_ok h
    obtain ⟨c', hc', h⟩ := Except.of_bind_eq_ok h
    cases h
    have hkept : Kept (Effect.Side none) c c' := cacheResponse_kept hc'
    have hraw : Kept (Effect.Side none) c' (c'.recordRaw env code' (code' :: rest)) := recordRaw_still.toKept
    refine ⟨c', hc', ?_⟩
    rw [routeFrame_eq, hraw.slot, hkept.slot, hslot]
    simp only [hends]

/-- A scope with nothing but surroundings. -/
def aside (env : Env) : Scope :=
  ⟨(· = env), fun _ => False, fun _ => False, fun _ _ _ => False, fun _ => False, False, False⟩

/-- With the queue going on, clients are sent nothing but the errors of their own requests. -/
theorem advanceQueue_speaks (env : Env) (ht : Told v P c) (hemits : ∀ e, (aside env).Emits e → P.emits e) :
    Speaks v P (fun _ why payload => payload = [0x01, 0x01] ∧ ∃ t, why = .error t) c (c.advanceQueue env) := by
  refine (writes_speak (S := aside env) (I := fun _ => True) (advanceQueue_writes rfl) ht trivial
    ⟨hemits, fun _ h => absurd h id⟩ (fun _ _ _ _ => trivial) fun c _ cid why payload _ hsource => ?_).1
  cases hsource with
  | error t => exact ⟨rfl, t, rfl⟩
  | reply h | fanout h => exact absurd h.received id
  | ack h => exact absurd h id
  | notify h =>
    rcases h with ⟨_, h, -⟩ | ⟨_, h, -⟩
    · exact absurd h id
    · exact absurd h.done id
  | replay _ h | blob h | row h => exact absurd h id
  | echo h => exact absurd h.done id

theorem advanceQueue_adds (env : Env) (cid : ClientId) (ht : Told v .any c) :
    ∃ errors, Adds cid errors c (c.advanceQueue env) ∧ ∀ frame ∈ errors, frame = [0x01, 0x01] := by
  obtain ⟨errors, hadds, herrors⟩ := (advanceQueue_speaks env ht fun _ _ => trivial).adds cid
  refine ⟨errors, hadds, fun frame hframe => ?_⟩
  obtain ⟨why, payload, rfl, rfl, -⟩ := herrors frame hframe
  rfl

theorem recordAck_adds {cid cid' : ClientId} : Adds cid [] c (c.recordAck env cid' f.ticket code frame) := by
  unfold recordAck
  dsimp only
  split
  · exact emit_adds rfl
  · exact .of_out rfl

/-- The copies that a client gets of a reply. -/
theorem deliverReply_adds (env : Env) (f : InFlight) (code : UInt8) (frame : Bytes) (cid : ClientId)
    (ht : Told v P c) : ∃ frames, Adds cid frames c (c.deliverReply env f code frame) ∧
    frames.length ≤ 1 ∧ (∀ frame' ∈ frames, frame' = messageFrameFor (v cid) frame) ∧
    (c.clients.Stays cid → f.clientId = some cid ∨ f.cmdCode = 0x0A ∧ Scope.fansOut code → frames.length = 1) ∧
    (f.clientId ≠ some cid → ¬(f.cmdCode = 0x0A ∧ Scope.fansOut code) → frames = []) := by
  have hreply : ∃ frames, Adds cid frames c (c.replyToClient env f code frame) ∧
      Told v P (c.replyToClient env f code frame) ∧
      c.clients.Onward (c.replyToClient env f code frame).clients ∧ frames.length ≤ 1 ∧
      (∀ frame' ∈ frames, frame' = messageFrameFor (v cid) frame) ∧
      (c.clients.Stays cid → f.clientId = some cid → frames.length = 1) ∧ (f.clientId ≠ some cid → frames = []) := by
    unfold replyToClient
    split
    · rename_i cid' hclient
      have hrecord : Told v P (c.recordAck env cid' f.ticket code frame) := by
        unfold recordAck
        dsimp only
        split
        · exact ht.of_eq rfl rfl
        · exact ht
      have hsame : (c.recordAck env cid' f.ticket code frame).clients = c.clients := by
        unfold recordAck
        dsimp only
        split <;> rfl
      have hspeaks : Speaks v P (fun _ _ _ => True) (c.recordAck env cid' f.ticket code frame)
          ((c.recordAck env cid' f.ticket code frame).sendToClient cid' frame (.reply f.ticket)) :=
        sendToClient_speaks hrecord trivial
      refine ⟨_, recordAck_adds.trans (sendToClient_adds hrecord), hspeaks.told, hsame ▸ hspeaks.clients, ?_, ?_,
        fun hstays hcid => ?_, fun hother => ?_⟩
      · split <;> simp
      · intro frame' hframe'
        split at hframe'
        · simpa using hframe'
        · simp at hframe'
      · obtain rfl : cid' = cid := Option.some.inj (hclient.symm.trans hcid)
        have hmem : cid' ∈ (c.recordAck env cid' f.ticket code frame).lockClients.clients.channels := by
          rw [lockClients, hsame]
          exact hstays.lock.connected
        rw [if_pos ⟨rfl, hmem⟩]
        rfl
      · have hne : ¬(cid' = cid ∧ cid ∈ (c.recordAck env cid' f.ticket code frame).lockClients.clients.channels) :=
          fun h => hother (h.1 ▸ hclient)
        rw [if_neg hne]
        rfl
    · rename_i hnone
      exact ⟨[], .of_out rfl, ht, .refl, Nat.zero_le _, List.forall_mem_nil _, fun _ h => by simp [hnone] at h,
        fun _ => rfl⟩
  obtain ⟨frames, hadds, ht₁, honward, hlen, hframes, hone, hnone⟩ := hreply
  rw [deliverReply_eq]
  split
  · rename_i hfan
    refine ⟨_, hadds.trans (broadcastToOthers_adds ht₁), ?_, ?_, fun hstays _ => ?_, fun _ hno => absurd hfan hno⟩
    · by_cases hcid : f.clientId = some cid
      · simpa [hcid] using hlen
      · rw [hnone hcid]
        split <;> simp
    · intro frame' hframe'
      rcases List.mem_append.mp hframe' with hframe' | hframe'
      · exact hframes frame' hframe'
      · split at hframe'
        · simpa using hframe'
        · simp at hframe'
    · have hmem := (honward.stays hstays).lock.connected
      by_cases hcid : f.clientId = some cid
      · rw [if_neg fun h => h.1 hcid, List.append_nil]
        exact hone hstays hcid
      · rw [if_pos ⟨hcid, hmem⟩, hnone hcid]
        rfl
  · rename_i hno
    exact ⟨frames, hadds, hlen, hframes, fun hstays h => h.elim (hone hstays) fun h => absurd h hno,
      fun hcid _ => hnone hcid⟩

/-! ### Polled messages -/

theorem messageFrameFor_ne_error {version : UInt8} (hcode : frame.head? = some code) (hne : code ≠ 0x01) :
    messageFrameFor version frame ≠ [0x01, 0x01] := by
  unfold messageFrameFor
  split
  · cases hcode
  · rename_i code' rest
    obtain rfl : code' = code := Option.some.inj hcode
    split
    · rename_i hcut
      rcases hcut.1 with rfl | rfl <;> simp
    · split
      · rename_i hpad
        rcases hpad.1 with rfl | rfl <;> simp
      · exact fun heq => hne (List.cons.inj heq).1

theorem onCommandAccepted_poll (hpoll : f.cmdCode = 0x0A) :
    c.onCommandAccepted env f = c.emit (.accepted f.request) := by
  have haccepted : c.acceptance f = c.emit (.accepted f.request) := by
    unfold acceptance
    cases f.clientId <;> simp [hpoll]
  have hecho (c : Core) : c.echoAccepted env f = c := by
    unfold echoAccepted
    cases f.clientId <;> simp [hpoll]
  rw [onCommandAccepted_eq, haccepted, hecho]
  simp [afterAccepted, hpoll]

/-- What a client is sent in the turn that completes a GET_MSG: the message, and errors of its own requests. -/
theorem poll_adds (ht : Told v P c) (h : c.handleRadioRx env frame = .ok c₁) (hslot : c.inFlight = some f)
    (hpoll : f.cmdCode = 0x0A) (hcode : frame.head? = some code) (hends : f.awaiting.classify code = (true, true))
    (hne : code ≠ 0x01) (cid : ClientId) : ∃ frames errors, Adds cid (frames ++ errors) c c₁ ∧
      (∀ frame ∈ errors, frame = [0x01, 0x01]) ∧ frames.length ≤ 1 ∧
      (∀ frame' ∈ frames, frame' = messageFrameFor (v cid) frame) ∧
      (c.clients.Stays cid → f.clientId = some cid ∨ Scope.fansOut code → frames.length = 1) ∧
      (f.clientId ≠ some cid → ¬Scope.fansOut code → frames = []) := by
  obtain ⟨c', hc', rfl⟩ := handleRadioRx_completed h hslot hcode hends
  have ht : Told v .any c := ht.forget
  have hcache : Speaks v .any (fun _ _ _ => False) c c' := cacheResponse_speaks hc' ht fun _ _ _ _ _ => trivial
  have hraw : Speaks v .any (fun _ _ _ => False) c' (c'.recordRaw env code frame) :=
    .of_if hcache.told fun _ => .of_eq hcache.told rfl rfl rfl
  obtain ⟨frames, hadds, hlen, hframes, hone, hnone⟩ :=
    deliverReply_adds env f code frame cid hraw.told
  have hdelivered : Told v .any ((c'.recordRaw env code frame).deliverReply env f code frame) := by
    have hS : Writes ⟨(· = env), (· = frame), fun _ => False, fun _ _ _ => False, (· = f), False,
        False⟩ (c'.recordRaw env code frame) ((c'.recordRaw env code frame).deliverReply env f code frame) :=
      deliverReply_writes ⟨rfl, rfl, code, hcode, by rw [hends]⟩ hcode
    exact (writes_speak (I := fun _ => True) (q := fun _ _ _ => True) hS hraw.told trivial
      ⟨fun _ _ => trivial, fun _ h => absurd h id⟩
      (fun _ _ _ _ => trivial) fun _ _ _ _ _ _ _ => trivial).1.told
  generalize (c'.recordRaw env code frame).deliverReply env f code frame = c₂ at hadds hdelivered
  have hcomplete : c₂.complete env f code =
      (({ c₂ with inFlight := none }.emit (.ended f.request (.replied code))).emit (.accepted f.request)).advanceQueue
      env := by
    unfold complete
    dsimp only
    rw [if_pos hne, onCommandAccepted_poll hpoll]
  have hfreed :
      Adds cid [] c₂ (({ c₂ with inFlight := none }.emit (.ended f.request (.replied code))).emit
        (.accepted f.request)) :=
    (emit_adds (c := { c₂ with inFlight := none }) rfl).trans (emit_adds rfl)
  have hfreed_told :
      Told v .any (({ c₂ with inFlight := none }.emit (.ended f.request (.replied code))).emit (.accepted f.request)) :=
    hdelivered.of_eq rfl rfl
  obtain ⟨errors, hadvance, herrors⟩ := advanceQueue_adds env cid hfreed_told
  refine ⟨frames, errors, ?_, herrors, hlen, hframes, fun hstays h => ?_, fun hcid hno => hnone hcid fun h => hno h.2⟩
  · rw [hcomplete]
    simpa using (((hcache.silent.trans hraw.silent).trans hadds).trans hfreed).trans hadvance
  · exact hone ((hcache.clients.trans hraw.clients).stays hstays) (h.imp_right fun h => ⟨hpoll, h⟩)

/-- A client that stays connected gets the message once if it polled it, or if its code fans out. -/
theorem count_poll {frontend : List (List FrontendOp)} (ht : Told v .any c)
    (h : c.step frontend (.radio env frame) = .ok c₁) (hslot : c.inFlight = some f) (hpoll : f.cmdCode = 0x0A)
    (hcode : frame.head? = some code) (hends : f.awaiting.classify code = (true, true)) (hne : code ≠ 0x01)
    (cid : ClientId) : (framesTo cid c₁.out).count (messageFrameFor (v cid) frame) ≤ 1 ∧
    ((c.begin frontend).clients.Stays cid → f.clientId = some cid ∨ Scope.fansOut code →
      (framesTo cid c₁.out).count (messageFrameFor (v cid) frame) = 1) ∧
    (f.clientId ≠ some cid → ¬Scope.fansOut code →
      (framesTo cid c₁.out).count (messageFrameFor (v cid) frame) = 0) := by
  obtain ⟨frames, errors, hadds, herrors, hlen, hframes, hone, hnone⟩ :=
    poll_adds (ht.begin fun _ => True) h hslot hpoll hcode hends hne cid
  have herror : errors.count (messageFrameFor (v cid) frame) = 0 := by
    refine List.count_eq_zero.mpr fun hmem => ?_
    exact messageFrameFor_ne_error hcode hne (herrors _ hmem)
  have hall : frames.count (messageFrameFor (v cid) frame) = frames.length :=
    List.count_eq_length.mpr fun frame' hframe' => (hframes frame' hframe').symm
  have hcount : (framesTo cid c₁.out).count (messageFrameFor (v cid) frame) = frames.length := by
    have hout : framesTo cid c₁.out = frames ++ errors := hadds
    rw [hout, List.count_append, herror, hall, Nat.add_zero]
  rw [hcount]
  exact ⟨hlen, hone, fun hcid hno => by rw [hnone hcid hno]; rfl⟩

/-- What awaits the reply to a GET_MSG. -/
theorem classify_poll {p : Command} (hpoll : p.code = 0x0A) (code : UInt8) : (awaitingFor p).classify code =
    (code == 0x01 || [0x07, 0x08, 0x10, 0x11, 0x1B, 0x0A].contains code, true) := by
  have hawaiting : awaitingFor p = .oneOf [0x07, 0x08, 0x10, 0x11, 0x1B, 0x0A] := by simp [awaitingFor, hpoll]
  rw [hawaiting]
  rfl

/-- Two clients connect to a radio with one channel, the sync is refused, the first client asks for version 3 and
    then polls. -/
theorem polled_exists : ∃ h c f, Reachable h c ∧ c.inFlight = some f ∧ f.clientId = some 1 ∧ f.cmdCode = 0x0A ∧
    f.awaiting = awaitingFor f.payload ∧ c.clients = ⟨[1, 2], 3, []⟩ ∧ c.protocolVersion 1 = 3 ∧
    c.config.eventLogLevel = .off := by
  have hr := ReachableWith.of_turns (q := fun _ => True) (p := fun _ _ _ => True)
    (l := [([[.connect, .connect]], .idle), ([], .radio sound [0x01, 0x01]), ([], .radio sound [0x01, 0x01]),
      ([], .command sound ⟨1, 5000, [0x16, 0x03]⟩), ([], .command sound ⟨1, 5000, [0x0A]⟩)])
    (show (Core.new ⟨.off, true, false, ⟨0, 0, 0, 0⟩, .off⟩ .empty).start sound
      ⟨true, [.frame [0x05], .frame [0x0D, 3, 0, 1]], sound, sound, sound⟩ [] = .ok _ from rfl) rfl trivial
      fun _ _ _ => trivial
  exact ⟨_, _, _, hr, rfl, rfl, rfl, rfl, rfl, rfl, rfl⟩

/-- A message that a client polls reaches every client that stays connected, once each and in its own layout,
    unless it is a CHANNEL_DATA_RECV and some other client stays; or the event log cannot decode it. -/
theorem poll_reaches_all_iff {h : List Effect} {requester : ClientId} {frontend : List (List FrontendOp)}
    (hr : Reachable h c) (hslot : c.inFlight = some f) (hclient : f.clientId = some requester)
    (hpoll : f.cmdCode = 0x0A) (hcode : frame.head? = some code) (hbelongs : (f.awaiting.classify code).1 = true)
    (hmessage : code ≠ 0x0A ∧ code ≠ 0x01) : (∃ c₁, c.step frontend (.radio env frame) = .ok c₁ ∧ ∀ cid,
      (framesTo cid c₁.out).count (messageFrameFor (c.protocolVersion cid) frame) ≤ 1 ∧
      ((c.begin frontend).clients.Stays cid →
        (framesTo cid c₁.out).count (messageFrameFor (c.protocolVersion cid) frame) = 1)) ↔
    ¬(c.config.eventLogLevel ≠ .off ∧ CutFrame frame) ∧
      (code ≠ 0x1B ∨ ∀ cid, (c.begin frontend).clients.Stays cid → cid = requester) := by
  obtain ⟨ha, -⟩ : Accounted False h c ∧ (False → c.Idle) := hr.accounted False.elim fun _ _ _ => False.elim
  have hawaiting : f.awaiting = awaitingFor f.payload := ha.awaiting f hslot
  have hclassify := classify_poll hpoll code
  rw [hawaiting, hclassify] at hbelongs
  have hends : f.awaiting.classify code = (true, true) := by rw [hawaiting, hclassify, ← hbelongs]
  have hfans : code ≠ 0x1B ↔ Scope.fansOut code := by
    have hcodes : code = 0x07 ∨ code = 0x08 ∨ code = 0x10 ∨ code = 0x11 ∨ code = 0x1B := by
      simpa [hmessage.1, hmessage.2] using hbelongs
    rcases hcodes with rfl | rfl | rfl | rfl | rfl <;> decide
  have hcompletes : (∃ c₁, c.step frontend (.radio env frame) = .ok c₁) ↔
      ¬(c.config.eventLogLevel ≠ .off ∧ CutFrame frame) :=
    handleRadioRx_completes_iff (c := c.begin frontend)
  constructor
  · rintro ⟨c₁, hs, hall⟩
    refine ⟨hcompletes.mp ⟨c₁, hs⟩, ?_⟩
    by_cases hdata : code = 0x1B
    · refine Or.inr fun cid hstays => ?_
      by_contra hother
      have hno : ¬Scope.fansOut code := fun h => hfans.mpr h hdata
      have hnot : f.clientId ≠ some cid := fun h => hother (Option.some.inj (h.symm.trans hclient))
      have hzero := (count_poll hr.told hs hslot hpoll hcode hends hmessage.2 cid).2.2 hnot hno
      exact absurd ((hall cid).2 hstays) (by rw [hzero]; decide)
    · exact Or.inl hdata
  · rintro ⟨hlog, hreach⟩
    obtain ⟨c₁, hs⟩ := hcompletes.mpr hlog
    refine ⟨c₁, hs, fun cid => ?_⟩
    obtain ⟨hle, hone, -⟩ := count_poll hr.told hs hslot hpoll hcode hends hmessage.2 cid
    refine ⟨hle, fun hstays => hone hstays ?_⟩
    rcases hreach with hcode | honly
    · exact Or.inr (hfans.mp hcode)
    · exact Or.inl (honly cid hstays ▸ hclient)

/-- A channel message reaches both clients. -/
theorem poll_reaches_all_channel : ∃ h c c₁, Reachable h c ∧
    c.step [] (.radio sound [0x08, 0, 0, 0, 0, 0, 0, 0, 0x68]) = .ok c₁ ∧ ∀ cid, (c.begin []).clients.Stays cid →
      (framesTo cid c₁.out).count (messageFrameFor (c.protocolVersion cid) [0x08, 0, 0, 0, 0, 0, 0, 0, 0x68]) = 1 := by
  obtain ⟨h, c, f, hr, hslot, hclient, hpoll, hawaiting, -, -, hoff⟩ := polled_exists
  have hbelongs : (f.awaiting.classify 0x08).1 = true := by rw [hawaiting, classify_poll hpoll 0x08]; rfl
  obtain ⟨c₁, hs, hall⟩ : ∃ c₁, c.step [] (.radio sound [0x08, 0, 0, 0, 0, 0, 0, 0, 0x68]) = .ok c₁ ∧ ∀ cid,
      (framesTo cid c₁.out).count (messageFrameFor (c.protocolVersion cid) [0x08, 0, 0, 0, 0, 0, 0, 0, 0x68]) ≤ 1 ∧
      ((c.begin []).clients.Stays cid →
        (framesTo cid c₁.out).count (messageFrameFor (c.protocolVersion cid) [0x08, 0, 0, 0, 0, 0, 0, 0, 0x68]) = 1) :=
    (poll_reaches_all_iff hr hslot hclient hpoll rfl hbelongs (by decide)).mpr ⟨fun h => h.1 hoff, Or.inl (by decide)⟩
  exact ⟨h, c, c₁, hr, hs, fun cid => (hall cid).2⟩

/-- A CHANNEL_DATA_RECV does not reach the second client. -/
theorem poll_data_missed : ∃ h c f c₁, Reachable h c ∧ c.inFlight = some f ∧ f.clientId = some 1 ∧ f.cmdCode = 0x0A ∧
    (awaitingFor f.payload).classify 0x1B = (true, true) ∧ (c.begin []).clients.Stays 2 ∧
    c.step [] (.radio sound [0x1B, 0, 0, 0, 0]) = .ok c₁ ∧
    (framesTo 2 c₁.out).count (messageFrameFor (c.protocolVersion 2) [0x1B, 0, 0, 0, 0]) = 0 := by
  obtain ⟨h, c, f, hr, hslot, hclient, hpoll, hawaiting, hclients, -, hoff⟩ := polled_exists
  have hends : (awaitingFor f.payload).classify 0x1B = (true, true) := classify_poll hpoll 0x1B
  have hstays : (c.begin []).clients.Stays 2 := by
    have hmem : 2 ∈ c.clients.channels := by simp [hclients]
    exact ⟨hmem, List.forall_mem_nil _⟩
  obtain ⟨c₁, hs⟩ : Completes ((c.begin []).handleRadioRx sound [0x1B, 0, 0, 0, 0]) :=
    handleRadioRx_completes_iff.mpr fun h => h.1 hoff
  have hs : c.step [] (.radio sound [0x1B, 0, 0, 0, 0]) = .ok c₁ := hs
  refine ⟨h, c, f, c₁, hr, hslot, hclient, hpoll, hends, hstays, hs, ?_⟩
  exact (count_poll hr.told hs hslot hpoll rfl (hawaiting ▸ hends) (by decide) 2).2.2 (by simp [hclient]) (by decide)

end
end Core
end CoreSplitter
