import CoreSplitter.Theorems.Listing
import CoreSplitter.Theorems.Own
import CoreSplitter.Theorems.Resume
import CoreSplitter.World.Frontend

/-! From a client's socket to the radio: what becomes of each command that a client sends. -/

namespace CoreSplitter
open Bytes

/-- A frame that answers a command of `cid` without the radio. -/
def Effect.Serves (cid : ClientId) (e : Effect) : Prop :=
  ∃ who version frame why, e = .client cid who version frame why ∧ (why = .cached ∨ ∃ id, why = .replay id)

namespace Core

/-! ### What becomes of a command -/

/-- A command is served without the radio, if its client stays, or it becomes one request and gets no answer yet. -/
inductive Fate (c : Core) (cid : ClientId) (p : Command) (c₁ : Core) : Prop
  | served {es : List Effect} (hout : c₁.out = c.out ++ es) (hnone : handedOver es = [])
      (hserved : c.clients.Stays cid → ∃ e ∈ es, e.Serves cid)
  | asked {es : List Effect} (hout : c₁.out = c.out ++ es)
      (hone : handedOver es = [⟨some cid, forwardedPayload p, c.nextTicket⟩]) (hnone : ∀ e ∈ es, ¬e.Serves cid)

section
variable {c c₁ c₂ : Core} {env : Env} {cid : ClientId} {p : Command} {q : Queued} {cmd : ClientCommand}
  {es : List Effect}

/-- What comes before the answer says nothing, and gives out no ticket. -/
theorem Fate.after (hout : c₁.out = c.out) (htickets : c₁.nextTicket = c.nextTicket)
    (hclients : c.clients.Onward c₁.clients) (h : Fate c₁ cid p c₂) : Fate c cid p c₂ := by
  cases h with
  | served h hnone hserved => exact .served (hout ▸ h) hnone fun hstays => hserved (hclients.stays hstays)
  | asked h hone hnone => exact .asked (hout ▸ h) (htickets ▸ hone) hnone

theorem sendToClient_served {payload : Bytes} {why : Why} (hwhy : why = .cached ∨ ∃ id, why = .replay id) :
    ∃ es, (c.sendToClient cid payload why).out = c.out ++ es ∧ handedOver es = [] ∧
      (c.clients.Stays cid → ∃ e ∈ es, e.Serves cid) := by
  refine ⟨_, sendToClient_out, ?_, fun hstays => ?_⟩
  · split <;> rfl
  · have hmem : cid ∈ (c.sendToClient cid payload why).clients.channels := by
      have hkept : Kept (fun _ => True) c (c.sendToClient cid payload why) :=
        (sendToClient_still fun _ _ _ => trivial).toKept
      exact (hkept.clients.stays hstays).connected
    rw [if_pos hmem]
    exact ⟨_, List.mem_singleton.mpr rfl, _, _, _, _, rfl, hwhy⟩

theorem sendAllToClient_served {payloads : List Bytes} (hne : payloads ≠ []) :
    ∃ es, (c.sendAllToClient cid payloads .cached).out = c.out ++ es ∧ handedOver es = [] ∧
      (c.clients.Stays cid → ∃ e ∈ es, e.Serves cid) := by
  obtain ⟨payload, rest, rfl⟩ := List.exists_cons_of_ne_nil hne
  obtain ⟨es, hout, hnone, hserved⟩ : ∃ es, (c.sendToClient cid payload .cached).out = c.out ++ es ∧
      handedOver es = [] ∧ (c.clients.Stays cid → ∃ e ∈ es, e.Serves cid) := sendToClient_served (Or.inl rfl)
  have hrest : Still (fun e => e.laneEvent = none) (c.sendToClient cid payload .cached)
      ((c.sendToClient cid payload .cached).sendAllToClient cid rest .cached) := sendAllToClient_still fun _ _ _ => rfl
  obtain ⟨es', hout', hnone'⟩ := hrest.out
  refine ⟨es ++ es', ?_, ?_, fun hstays => ?_⟩
  · rw [← List.append_assoc, ← hout]
    exact hout'
  · rw [handedOver_append, hnone, handedOver_eq_nil hnone']
    rfl
  · obtain ⟨e, he, hserves⟩ := hserved hstays
    exact ⟨e, List.mem_append_left _ he, hserves⟩

theorem serveBlob_served {blob : Option Bytes} (h : (c.serveBlob cid blob).1 = true) :
    ∃ es, (c.serveBlob cid blob).2.out = c.out ++ es ∧ handedOver es = [] ∧
      (c.clients.Stays cid → ∃ e ∈ es, e.Serves cid) := by
  cases blob with
  | none => cases h
  | some blob => exact sendToClient_served (Or.inl rfl)

theorem serveBlob_unserved {blob : Option Bytes} (h : (c.serveBlob cid blob).1 = false) :
    (c.serveBlob cid blob).2 = c := by
  cases blob with
  | none => rfl
  | some blob => cases h

theorem tryServeFromCache_served {code : UInt8} (h : (c.tryServeFromCache env code cmd).1 = true) :
    ∃ es, (c.tryServeFromCache env code cmd).2.out = c.out ++ es ∧ handedOver es = [] ∧
      (c.clients.Stays cmd.clientId → ∃ e ∈ es, e.Serves cmd.clientId) := by
  unfold tryServeFromCache at h ⊢
  split at h
  · exact serveBlob_served h
  · exact serveBlob_served h
  · exact serveBlob_served h
  · split at h
    · rename_i hcached
      rw [if_pos hcached]
      exact sendAllToClient_served (List.cons_ne_nil _ _)
    · cases h
  · dsimp only at h ⊢
    split at h
    · rename_i hok
      rw [if_pos hok]
      split at h
      · exact sendToClient_served (Or.inl rfl)
      · cases h
    · cases h
  · cases h

theorem tryServeFromCache_unserved {code : UInt8} (h : (c.tryServeFromCache env code cmd).1 = false) :
    (c.tryServeFromCache env code cmd).2 = c := by
  by_cases hread : code = 0x04 ∨ code = 0x1F
  · exact unserved_read hread h
  · unfold tryServeFromCache at h ⊢
    split at h
    · exact serveBlob_unserved h
    · exact serveBlob_unserved h
    · exact serveBlob_unserved h
    · exact absurd (Or.inl rfl) hread
    · exact absurd (Or.inr rfl) hread
    · rfl

theorem dispatchToRadio_hands : ∃ es, (c.dispatchToRadio env q).out = c.out ++ es ∧ handedOver es = [] ∧
    ∀ e ∈ es, ¬e.Serves cid := by
  rw [dispatchToRadio_eq]
  split
  · have hsent : (c.startWith env q).out = c.out ++ [.radio q] := (invalidate_kept (c := c.emit (.radio q))).silent
    refine ⟨_, hsent, rfl, fun e he => ?_⟩
    rintro ⟨_, _, _, _, rfl, -⟩
    cases List.mem_singleton.mp he
  · obtain ⟨es, hout, herror⟩ := (failTo_still (c := c) (q := q)).out
    refine ⟨es ++ [.ended q .sendFailed], ?_, ?_, fun e he => ?_⟩
    · rw [← List.append_assoc, ← hout]
      rfl
    · have hnone : handedOver es = [] := handedOver_eq_nil fun e he => by
        obtain ⟨_, _, _, _, -, rfl⟩ := herror e he
        rfl
      rw [handedOver_append, hnone]
      rfl
    · rintro ⟨_, _, _, _, rfl, hwhy⟩
      rcases List.mem_append.mp he with he | he
      · obtain ⟨_, _, _, _, -, heq⟩ := herror _ he
        cases heq
        rcases hwhy with hwhy | ⟨_, hwhy⟩ <;> cases hwhy
      · cases List.mem_singleton.mp he

theorem enqueueOrDispatch_fate : Fate c cid p (c.enqueueOrDispatch env (some cid) (forwardedPayload p)) := by
  let q : Queued := ⟨some cid, forwardedPayload p, c.nextTicket⟩
  have hhanded (e : Effect) (he : e ∈ [Effect.handed q]) : ¬e.Serves cid := by
    rintro ⟨_, _, _, _, rfl, -⟩
    cases List.mem_singleton.mp he
  unfold enqueueOrDispatch
  split
  · obtain ⟨es, hout, hnone, hserves⟩ : ∃ es, ((c.hand (some cid) (forwardedPayload p)).2.dispatchToRadio env q).out =
        (c.hand (some cid) (forwardedPayload p)).2.out ++ es ∧ handedOver es = [] ∧ ∀ e ∈ es, ¬e.Serves cid :=
      dispatchToRadio_hands
    have hone : handedOver (.handed q :: es) = [q] := by
      rw [← List.singleton_append, handedOver_append, hnone]
      rfl
    refine .asked (hout.trans (List.append_assoc ..)) hone fun e he => ?_
    rcases List.mem_cons.mp he with rfl | he
    · exact hhanded _ (List.mem_singleton.mpr rfl)
    · exact hserves e he
  · exact .asked rfl rfl hhanded

theorem serveFromRadio_fate : Fate c cmd.clientId p (c.serveFromRadio env cmd p) := by
  unfold serveFromRadio
  dsimp only
  cases hserved : (c.tryServeFromCache env p.code cmd).1 with
  | true =>
    obtain ⟨es, hout, hnone, hserves⟩ := tryServeFromCache_served hserved
    simp only [if_true]
    split
    · have hnotify : Still (Effect.Side none) (c.tryServeFromCache env p.code cmd).2
          ((c.tryServeFromCache env p.code cmd).2.notifyMissed cmd.clientId) := notifyMissed_still
      obtain ⟨es', hout', hside⟩ := hnotify.out
      have hnone' : handedOver (es ++ es') = [] := by
        rw [handedOver_append, hnone, handedOver_eq_nil fun e he => (hside e he).lane]
        rfl
      refine .served (by rw [hout', hout, List.append_assoc]) hnone' fun hstays => ?_
      obtain ⟨e, he, hserves⟩ := hserves hstays
      exact ⟨e, List.mem_append_left _ he, hserves⟩
    · exact .served hout hnone hserves
  | false =>
    simp only [Bool.false_eq_true, if_false]
    rw [tryServeFromCache_unserved hserved]
    exact enqueueOrDispatch_fate

theorem replayNextMissed_fate : Fate c cmd.clientId p (if (c.replayNextMissed env cmd.clientId).1 then
    (c.replayNextMissed env cmd.clientId).2 else (c.replayNextMissed env cmd.clientId).2.serveFromRadio env cmd p) := by
  have hstill : Still (Effect.Side none) c (c.replayNextMissed env cmd.clientId).2 := replayNextMissed_still
  cases hnext : c.nextMissed env cmd.clientId with
  | none =>
    obtain ⟨hserved, hout⟩ := replayNextMissed_passes hnext
    rw [hserved]
    exact serveFromRadio_fate.after hout hstill.tickets hstill.clients
  | some missed =>
    obtain ⟨s, hs, hfirst⟩ := Option.bind_eq_some_iff.mp hnext
    obtain ⟨hserved, hout⟩ := replayNextMissed_serves hs hfirst
    rw [hserved]
    refine .served hout ?_ fun hstays => ?_
    · split <;> rfl
    · rw [if_pos (hstill.clients.stays hstays).connected]
      exact ⟨_, List.mem_singleton.mpr rfl, _, _, _, _, rfl, Or.inr ⟨_, rfl⟩⟩

theorem serveIdentified_fate : Fate c cmd.clientId p (c.serveIdentified env cmd p) := by
  unfold serveIdentified
  split
  · exact replayNextMissed_fate
  · exact serveFromRadio_fate

theorem serveCommand_fate : Fate c cmd.clientId p (c.serveCommand env cmd p) := by
  have hregister : Kept (fun _ => False) c (if p.code = 0x01 then c.registerSession env cmd else c) := by
    refine .of_if fun _ => ?_
    by_cases hok : env.dbOk .registerAdvance = true
    · simp only [registerSession, hok, if_true]
      exact .of_eq rfl
    · simp only [registerSession, hok]
      exact .of_eq rfl
  have hversion : Still (fun _ => False) (if p.code = 0x01 then c.registerSession env cmd else c)
      ((if p.code = 0x01 then c.registerSession env cmd else c).recordVersion p.code cmd) := recordVersion_still
  have hbefore := hregister.trans hversion.toKept
  exact Fate.after hbefore.silent hbefore.tickets hbefore.clients serveIdentified_fate

theorem step_fate {frontend : List (List FrontendOp)} (hs : c.step frontend (.command env cmd) = .ok c₁)
    (hne : cmd.payload ≠ []) :
    c₁ = (c.begin frontend).lockClients ∧ cmd.clientId ∉ (c.begin frontend).lockClients.clients.channels ∨
      Fate (c.begin frontend).lockClients cmd.clientId ⟨cmd.payload, hne⟩ c₁ := by
  have hs : (c.begin frontend).handleClientCommand env cmd = .ok c₁ := hs
  unfold handleClientCommand at hs
  rw [dif_neg hne] at hs
  dsimp only [clientIsAlive] at hs
  cases halive : (c.begin frontend).lockClients.clients.channels.contains cmd.clientId with
  | false =>
    rw [halive] at hs
    cases hs
    exact Or.inl ⟨rfl, fun hmem => by simp [hmem] at halive⟩
  | true =>
    rw [halive] at hs
    obtain ⟨-, -, hs⟩ := Except.of_bind_eq_ok hs
    cases hs
    exact Or.inr serveCommand_fate

end

/-! ### Requests -/

/-- What the radio is asked for a payload. -/
def requested (payload : Bytes) : Bytes := if payload.head? = some 0x16 then [0x16, radioProtocolVersion] else payload

/-- The payloads of the requests of one client. -/
def requestsOf (cid : ClientId) (l : List Queued) : List Bytes :=
  (l.filter (·.clientId = some cid)).map (·.payload.bytes)

/-- The payloads that are put on `radio_send_tx`. -/
def commandsSent (h : List Effect) : List Bytes :=
  h.filterMap fun
    | .radio q => some q.payload.bytes
    | .radioInit p => some p.bytes
    | _ => none

/-- The commands that some turns handled. -/
def commandsOf (l : List Lap) : List ClientCommand :=
  l.filterMap fun s => match s.event with
    | .command _ cmd => some cmd
    | _ => none

section
variable {c c₁ : Core} {env : Env} {cid : ClientId} {q : Queued} {cmd : ClientCommand} {l l' : List Queued}
  {laps : List Lap} {frontend : List (List FrontendOp)} {e : Event}

@[simp] theorem requestsOf_append : requestsOf cid (l ++ l') = requestsOf cid l ++ requestsOf cid l' := by
  simp [requestsOf]

theorem forwardedPayload_bytes (hne : cmd.payload ≠ []) :
    (forwardedPayload ⟨cmd.payload, hne⟩).bytes = requested cmd.payload := by
  have hhead : cmd.payload.head? = some (Command.code ⟨cmd.payload, hne⟩) := List.head?_eq_some_head hne
  unfold forwardedPayload requested
  rw [hhead]
  by_cases hcode : Command.code ⟨cmd.payload, hne⟩ = 0x16 <;> simp [hcode]

/-- A turn hands over the request of its command, or requests of the proxy's own. -/
theorem step_hands (hs : c.step frontend e = .ok c₁) : (∀ q ∈ handedOver c₁.out, IsOwn q) ∨
    ∃ env cmd hne, e = .command env cmd ∧
    handedOver c₁.out = [⟨some cmd.clientId, forwardedPayload ⟨cmd.payload, hne⟩, c.nextTicket⟩] := by
  have hsilent : (c.begin frontend).lockClients.out = [] := rfl
  by_cases he : ∃ env cmd, e = .command env cmd
  · obtain ⟨env, cmd, rfl⟩ := he
    by_cases hempty : cmd.payload = []
    · have hs : (c.begin frontend).handleClientCommand env cmd = .ok c₁ := hs
      unfold handleClientCommand at hs
      rw [dif_pos hempty] at hs
      cases hs
      exact Or.inl (List.forall_mem_nil _)
    · rcases step_fate hs hempty with ⟨rfl, -⟩ | hfate
      · exact Or.inl (List.forall_mem_nil _)
      · cases hfate with
        | served hout hnone =>
          rw [hout, hsilent, List.nil_append, hnone]
          exact Or.inl (List.forall_mem_nil _)
        | asked hout hone =>
          rw [hout, hsilent, List.nil_append]
          exact Or.inr ⟨env, cmd, hempty, rfl, hone⟩
  · obtain ⟨es, hout, hown⟩ := handle_asksOwn hs fun env cmd heq => he ⟨env, cmd, heq⟩
    rw [hout]
    exact Or.inl hown

theorem requestsOf_own (h : ∀ q ∈ l, IsOwn q) : requestsOf cid l = [] := by
  rw [requestsOf, List.map_eq_nil_iff, List.filter_eq_nil_iff]
  intro q hq hclient
  rw [(h q hq).client] at hclient
  simp at hclient

theorem commandsOf_cons {s : Lap} : commandsOf (s :: laps) = commandsOf [s] ++ commandsOf laps := by
  rw [commandsOf, commandsOf, commandsOf, ← List.filterMap_append, List.singleton_append]

/-- A turn asks the radio at most what its command says. -/
theorem step_requests (hs : c.step frontend e = .ok c₁) :
    (requestsOf cid (handedOver c₁.out)).Sublist
    ((Front.payloadsOf cid (commandsOf [⟨c, frontend, e, c₁⟩])).map requested) := by
  rcases step_hands hs with hown | ⟨env, cmd, hne, rfl, hone⟩
  · rw [requestsOf_own hown]
    exact List.nil_sublist _
  · rw [hone]
    show (requestsOf cid [_]).Sublist ((Front.payloadsOf cid [cmd]).map requested)
    rw [Front.payloadsOf_singleton]
    by_cases hclient : cmd.clientId = cid
    · simp [requestsOf, hclient, forwardedPayload_bytes hne]
    · simp [requestsOf, hclient]

/-- A request is a read of the proxy's own, or a command that some turn handled. -/
def Justified (l : List ClientCommand) (q : Queued) : Prop :=
  IsOwn q ∨ ∃ cmd ∈ l, q.clientId = some cmd.clientId ∧ q.payload.bytes = requested cmd.payload

theorem Justified.mono {l l' : List ClientCommand} (h : Justified l q) (hl : l ⊆ l') : Justified l' q :=
  h.imp_right fun ⟨cmd, hcmd, hrest⟩ => ⟨cmd, hl hcmd, hrest⟩

theorem step_justified (hs : c.step frontend e = .ok c₁) (hq : q ∈ handedOver c₁.out) :
    Justified (commandsOf [⟨c, frontend, e, c₁⟩]) q := by
  rcases step_hands hs with hown | ⟨env, cmd, hne, rfl, hone⟩
  · exact Or.inl (hown q hq)
  · rw [hone] at hq
    obtain rfl := List.mem_singleton.mp hq
    exact Or.inr ⟨cmd, List.mem_singleton.mpr rfl, rfl, forwardedPayload_bytes hne⟩

/-- A run asks the radio for a client at most what the client's commands say, in their order. -/
theorem Trace.requests (h : Trace c laps c₁) :
    (requestsOf cid (handedOver (history laps))).Sublist ((Front.payloadsOf cid (commandsOf laps)).map requested) := by
  induction h with
  | nil => exact List.nil_sublist _
  | cons hs _ ih =>
    rw [history_cons, handedOver_append, requestsOf_append, commandsOf_cons, Front.payloadsOf_append, List.map_append]
    exact (step_requests hs).append ih

/-- What else it asks for are reads of the proxy's own. -/
theorem Trace.justified (h : Trace c laps c₁) : ∀ q ∈ handedOver (history laps), Justified (commandsOf laps) q := by
  induction h with
  | nil => exact List.forall_mem_nil _
  | cons hs _ ih =>
    rw [history_cons, handedOver_append, commandsOf_cons]
    intro q hq
    rcases List.mem_append.mp hq with hq | hq
    · exact (step_justified hs hq).mono (List.subset_append_left _ _)
    · exact (ih q hq).mono (List.subset_append_right _ _)

end

/-! ### From the socket to the radio -/

section
variable {c₀ c : Core} {config : Config} {db : NodeState} {env : Env} {first : Attempt} {attempts : List Attempt}
  {laps l₁ l₂ : List Lap} {t : Lap} {cmd : ClientCommand} {s : Front} {x : Conn} {id : ClientId} {l : List Piece}
  {later : Bytes}

theorem start_own (hstart : (Core.new config db).start env first attempts = .ok c₀) :
    ∀ q ∈ handedOver c₀.out, IsOwn q := by
  obtain ⟨es, hout, hown⟩ := start_asksOwn hstart
  rw [hout]
  exact hown

/-- What the radio is sent for a client was handed over for it, in this order. -/
theorem Accounted.sent_handed {h : List Effect} (ha : Accounted True h c) : (sentToRadio h).Sublist (handedOver h) := by
  have horder := ha.lane.order (submitted_laneEvents ▸ List.Nodup.of_map _ ha.unique)
  rw [started_laneEvents, submitted_laneEvents, dropped_laneEvents] at horder
  exact (List.sublist_append_left _ _).trans (horder ▸ List.filter_sublist)

theorem Trace.run_syncOpen (h : Trace c₀ laps c) (hopen : ∀ t ∈ laps, t.event.SyncOpen) :
    Run (fun _ _ e => e.SyncOpen) c₀ (history laps) c := by
  induction h with
  | nil c => exact .refl c
  | @cons c c₁ c₂ frontend e l hs _ ih =>
    have hhead : Run (fun _ _ e => e.SyncOpen) c ([] ++ c₁.out) c₁ := .step (.refl c) (hopen _ List.mem_cons_self) hs
    exact hhead.trans (ih fun t ht => hopen t (List.mem_cons_of_mem _ ht))

theorem Scope.initialised {S : Scope} {p : Command} (h : S.Emits (.radioInit p)) :
    p = buildAppstart ∨ p = deviceQuery := by
  cases h with
  | logs h => cases h
  | init hp => exact hp

theorem Trace.initialised {v : ClientId → UInt8} {p : Command} (ht : Told v .any c₀) (h : Trace c₀ laps c)
    (hp : .radioInit p ∈ history laps) : p = buildAppstart ∨ p = deviceQuery := by
  induction h generalizing v with
  | nil => exact absurd hp List.not_mem_nil
  | cons hs _ ih =>
    have htells := step_emits hs ht
    rcases List.mem_append.mp hp with hp | hp
    · exact Scope.initialised (htells.out _ hp)
    · exact ih htells.told.forget hp

/-- To initialise the radio nothing else is sent than the proxy's APP_START and its DEVICE_QUERY. -/
theorem initialised {p : Command} (hstart : (Core.new config db).start env first attempts = .ok c₀)
    (htrace : Trace c₀ laps c) (hp : .radioInit p ∈ c₀.out ++ history laps) : p = buildAppstart ∨ p = deviceQuery :=
  (List.mem_append.mp hp).elim (fun hp => Scope.initialised ((start_emits hstart).out _ hp))
    (htrace.initialised (start_told hstart))

/-- Of a client that sends encoded payloads, and any bytes between them that start no frame, the radio is sent these
    payloads at most, each at most once and in order, with the proxy's version in a DEVICE_QUERY. What else it is
    sent are reads of the proxy's own, commands of other clients, and the APP_START and DEVICE_QUERY that initialise
    it. -/
theorem asked_in_order (hr : s.Reach) (hconn : s.conns.lookup id = some x)
    (hsent : x.taken ++ (x.inbound ++ later) = l.flatMap Piece.bytes)
    (hnoise : ∀ y ∈ l, ∀ b ∈ y.noise, b ≠ 0x3C ∧ b ≠ 0x3E) (hlen : ∀ y ∈ l, y.payload.length ≤ 65535)
    (hstart : (Core.new config db).start env first attempts = .ok c₀)
    (hsync : ∀ a ∈ first :: attempts, a.syncEnv.writerOpen = true) (htrace : Trace c₀ laps c)
    (hopen : ∀ t ∈ laps, t.event.SyncOpen) (hhandled : commandsOf laps = s.handled) :
    (requestsOf id (sentToRadio (c₀.out ++ history laps))).Sublist (l.map fun y => requested y.payload) ∧
      (∀ q ∈ sentToRadio (c₀.out ++ history laps), Justified s.handled q) ∧
      ∀ p, .radioInit p ∈ c₀.out ++ history laps → p = buildAppstart ∨ p = deviceQuery := by
  have hreach :
      ReachableWith (fun a => a.syncEnv.writerOpen = true) (fun _ _ e => e.SyncOpen) (c₀.out ++ history laps) c :=
    ⟨config, db, env, first, attempts, c₀, history laps, hsync first List.mem_cons_self,
      fun a ha => hsync a (List.mem_cons_of_mem _ ha), hstart, htrace.run_syncOpen hopen, rfl⟩
  obtain ⟨ha, -⟩ : Accounted True (c₀.out ++ history laps) c ∧ (True → c.Idle) :=
    hreach.accounted (fun _ _ h => h) fun _ _ _ _ h => h
  have hown : ∀ q ∈ handedOver c₀.out, IsOwn q := start_own hstart
  have hsublist : (requestsOf id (handedOver (history laps))).Sublist ((Front.payloadsOf id s.handled).map requested) :=
    hhandled ▸ htrace.requests
  refine ⟨?_, fun q hq => ?_, fun p => initialised hstart htrace⟩
  · have hread : frames.readAll (x.taken ++ (x.inbound ++ later)) = (l.map Piece.payload, []) :=
      hsent ▸ readAll_pieces hnoise hlen
    rw [Reader.readAll_append] at hread
    have hprefix : Front.payloadsOf id s.handled <+: l.map Piece.payload :=
      (hr.inv.sent_prefix hconn).trans ⟨_, congrArg Prod.fst hread⟩
    have hhanded : requestsOf id (handedOver (c₀.out ++ history laps)) = requestsOf id (handedOver (history laps)) := by
      rw [handedOver_append, requestsOf_append, requestsOf_own hown, List.nil_append]
    have hfirst :
        (requestsOf id (sentToRadio (c₀.out ++ history laps))).Sublist (requestsOf id (handedOver (history laps))) :=
      hhanded ▸ (ha.sent_handed.filter _).map _
    have hlast : ((Front.payloadsOf id s.handled).map requested).Sublist ((l.map Piece.payload).map requested) :=
      hprefix.sublist.map requested
    rw [List.map_map] at hlast
    exact (hfirst.trans hsublist).trans hlast
  · have hq : q ∈ handedOver (c₀.out ++ history laps) := ha.sent_handed.subset hq
    rw [handedOver_append] at hq
    rcases List.mem_append.mp hq with hq | hq
    · exact Or.inl (hown q hq)
    · exact hhandled ▸ htrace.justified q hq

/-- A client connects while the proxy syncs, and asks for the battery. -/
theorem asked_battery : ∃ c₀ t c, booted .off = .ok c₀ ∧ Trace c₀ [t] c ∧ t.event = .command sound ⟨1, 5000, [0x14]⟩ ∧
    (t.before.begin t.frontend).lockClients.clients.Stays 1 ∧ handedOver t.after.out ≠ [] ∧
    commandsSent c₀.out = [buildAppstart.bytes, [0x16, 3], [0x04]] ∧ .radioInit deviceQuery ∈ c₀.out := by
  exact ⟨_, ⟨_, [[.connect]], .command sound ⟨1, 5000, [0x14]⟩, _⟩, _, show booted .off = .ok _ from rfl,
    .cons rfl (.nil _), rfl, ⟨List.mem_singleton.mpr rfl, List.forall_mem_nil _⟩, List.cons_ne_nil _ _, rfl,
    List.mem_cons_of_mem _ List.mem_cons_self⟩

theorem asked_in_order_battery : ∃ s c₀ laps c, Front.Reach s ∧ Trace c₀ laps c ∧ s.handled = [⟨1, 5000, [0x14]⟩] ∧
    commandsOf laps = s.handled ∧ (requestsOf 1 (sentToRadio (c₀.out ++ history laps))).Sublist [[0x14]] ∧
    .radioInit deviceQuery ∈ c₀.out ++ history laps ∧
    ∀ p, .radioInit p ∈ c₀.out ++ history laps → p = buildAppstart ∨ p = deviceQuery := by
  obtain ⟨s, x, hr, hconn, hhandled, -, htaken, hinbound, -⟩ := Front.reach_battery
  obtain ⟨c₀, t, c, hboot, htrace, he, -, -, -, hquery⟩ := asked_battery
  have hsent : x.taken ++ (x.inbound ++ []) = [⟨[7], true, [0x14]⟩].flatMap Piece.bytes := by
    rw [htaken, hinbound]
    rfl
  have hcommands : commandsOf [t] = s.handled := by
    rw [hhandled]
    simp [commandsOf, he]
  obtain ⟨horder, -, hinit⟩ := asked_in_order hr hconn hsent (by simp) (by simp) hboot (by simp [sound, soundAt]) htrace
    (by simp [he, Event.SyncOpen]) hcommands
  exact ⟨s, c₀, [t], c, hr, htrace, hhandled, hcommands, horder, List.mem_append_left _ hquery, hinit⟩

/-- A command that finds its client connected, and keeps it, is answered in its turn, or becomes one request that
    has one outcome. -/
theorem command_answered (hstart : (Core.new config db).start env first attempts = .ok c₀)
    (htrace : Trace c₀ (l₁ ++ t :: l₂) c) (he : t.event = .command env cmd) (hne : cmd.payload ≠ [])
    (hstays : (t.before.begin t.frontend).lockClients.clients.Stays cmd.clientId) :
    handedOver t.after.out = [] ∧ (∃ e ∈ t.after.out, e.Serves cmd.clientId) ∨
      ∃ q, handedOver t.after.out = [q] ∧ q.clientId = some cmd.clientId ∧ q.payload.bytes = requested cmd.payload ∧
        (∀ e ∈ t.after.out, ¬e.Serves cmd.clientId) ∧ Outcome (c₀.out ++ history (l₁ ++ t :: l₂)) c q := by
  obtain ⟨-, hs, -⟩ := htrace.split
  rw [he] at hs
  have ha : Accounted False (c₀.out ++ history (l₁ ++ t :: l₂)) c := htrace.accounted hstart
  have hsilent : (t.before.begin t.frontend).lockClients.out = [] := rfl
  have hfate := (step_fate hs hne).resolve_left fun h => h.2 hstays.connected
  cases hfate with
  | served hout hnone hserved =>
    rw [hsilent, List.nil_append] at hout
    exact Or.inl ⟨hout ▸ hnone, hout ▸ hserved hstays⟩
  | asked hout hone hnone =>
    rw [hsilent, List.nil_append] at hout
    refine Or.inr ⟨_, hout ▸ hone, rfl, forwardedPayload_bytes hne, hout ▸ hnone, ha.outcome ?_⟩
    rw [mem_handedOver, List.mem_append, mem_history]
    exact Or.inr ⟨t, by simp, mem_handedOver.mp (hout ▸ hone ▸ List.mem_singleton.mpr rfl)⟩

theorem command_answered_battery : ∃ c₀ t c q, Trace c₀ [t] c ∧ t.event = .command sound ⟨1, 5000, [0x14]⟩ ∧
    q.payload.bytes = [0x14] ∧ Outcome (c₀.out ++ history [t]) c q := by
  obtain ⟨c₀, t, c, hboot, htrace, he, hstays, hhanded, -⟩ := asked_battery
  have htrace' : Trace c₀ ([] ++ t :: []) c := htrace
  rcases command_answered hboot htrace' he (List.cons_ne_nil _ _) hstays with ⟨hnone, -⟩ |
    ⟨q, -, -, hpayload, -, houtcome⟩
  · exact absurd hnone hhanded
  · exact ⟨c₀, t, c, q, htrace, he, hpayload, houtcome⟩

/-! ### What the radio reads -/

theorem mem_commandsSent {h : List Effect} {payload : Bytes} (hmem : payload ∈ commandsSent h) :
    (∃ q, .radio q ∈ h ∧ q.payload.bytes = payload) ∨ ∃ p, .radioInit p ∈ h ∧ p.bytes = payload := by
  obtain ⟨e, he, hpayload⟩ := List.mem_filterMap.mp hmem
  cases e with
  | radio q => exact Or.inl ⟨q, he, Option.some.inj hpayload⟩
  | radioInit p => exact Or.inr ⟨p, he, Option.some.inj hpayload⟩
  | _ => cases hpayload

theorem requested_length {payload : Bytes} (hlen : payload.length ≤ 65535) : (requested payload).length ≤ 65535 := by
  unfold requested
  split
  · exact (by decide : 2 ≤ 65535)
  · exact hlen

/-- The commands that the frontend takes off its clients' streams fit a frame, so all that the proxy has for the
    radio does. -/
theorem sent_fits (hr : s.Reach) (hstart : (Core.new config db).start env first attempts = .ok c₀)
    (htrace : Trace c₀ laps c) (hhandled : commandsOf laps = s.handled) :
    ∀ payload ∈ commandsSent (c₀.out ++ history laps), payload.length ≤ 65535 := by
  have ha : Accounted False (c₀.out ++ history laps) c := htrace.accounted hstart
  intro payload hpayload
  rcases mem_commandsSent hpayload with ⟨q, hq, rfl⟩ | ⟨p, hp, rfl⟩
  · have hstarted : q ∈ Lane.started (laneEvents (c₀.out ++ history laps)) :=
      started_laneEvents ▸ mem_sentToRadio.mpr hq
    have hhanded : q ∈ handedOver (c₀.out ++ history laps) :=
      submitted_laneEvents ▸ ha.lane.submitted_of_started hstarted
    have hjustified : Justified s.handled q := by
      rw [handedOver_append] at hhanded
      rcases List.mem_append.mp hhanded with hq | hq
      · exact Or.inl (start_own hstart q hq)
      · exact hhandled ▸ htrace.justified q hq
    rcases hjustified with hown | ⟨cmd, hcmd, -, hbytes⟩
    · exact hown.read.length_le.trans (by decide)
    · obtain ⟨x, hx, -⟩ := hr.inv.origin cmd (List.mem_append_left _ hcmd)
      have hread : cmd.payload ∈ (frames.readAll x.taken).1 := by
        refine (hr.inv.sent_prefix hx).subset (List.mem_map.mpr ⟨cmd, ?_, rfl⟩)
        exact List.mem_filter.mpr ⟨hcmd, decide_eq_true rfl⟩
      rw [hbytes]
      exact requested_length (length_readAll_le _ hread)
  · rcases initialised hstart htrace hp with rfl | rfl
    · exact (by decide +kernel : buildAppstart.bytes.length ≤ 65535)
    · exact (by decide : 2 ≤ 65535)

/-- Whatever part of it one backend writes, and however its stream is cut, the radio reads these commands, in order
    and nothing else. -/
theorem radio_reads {h₁ h₂ h₃ : List Effect} {chunks : List Bytes} (hr : s.Reach)
    (hstart : (Core.new config db).start env first attempts = .ok c₀) (htrace : Trace c₀ laps c)
    (hhandled : commandsOf laps = s.handled) (hpart : c₀.out ++ history laps = h₁ ++ h₂ ++ h₃)
    (hchunks : chunks.flatten = (commandsSent h₂).flatMap encodeCommand) :
    FrameParser.new.feedAll chunks = (commandsSent h₂, .new) := by
  have hfits : ∀ payload ∈ commandsSent h₂, payload.length ≤ 65535 := fun payload hpayload => by
    refine sent_fits hr hstart htrace hhandled payload ?_
    rw [hpart, commandsSent, List.filterMap_append, List.filterMap_append]
    exact List.mem_append_left _ (List.mem_append_right _ hpayload)
  have hstream :
      (commandsSent h₂).flatMap encodeCommand = ((commandsSent h₂).map fun payload => ⟨[], true, payload⟩).flatMap
      Piece.bytes := by
    rw [List.flatMap_map]
    rfl
  have hdecoded := feedAll_encoded ((commandsSent h₂).map fun payload => ⟨[], true, payload⟩) chunks (by simp)
    (by simpa using hfits) (hchunks.trans hstream)
  rw [hdecoded, List.map_map]
  exact congrArg (·, FrameParser.new) (List.map_id _)

theorem radio_reads_battery : ∃ s c₀ laps c, Front.Reach s ∧ Trace c₀ laps c ∧ commandsOf laps = s.handled ∧
    s.handled = [⟨1, 5000, [0x14]⟩] ∧ commandsSent c₀.out = [buildAppstart.bytes, [0x16, 3], [0x04]] ∧
    FrameParser.new.feedAll [(commandsSent c₀.out).flatMap encodeCommand] = (commandsSent c₀.out, .new) := by
  obtain ⟨s, x, hr, hconn, hhandled, -⟩ := Front.reach_battery
  obtain ⟨c₀, t, c, hboot, htrace, he, -, -, hsent, -⟩ := asked_battery
  have hcommands : commandsOf [t] = s.handled := by
    rw [hhandled]
    simp [commandsOf, he]
  have hpart : c₀.out ++ history [t] = [] ++ c₀.out ++ history [t] := rfl
  exact ⟨s, c₀, [t], c, hr, htrace, hcommands, hhandled, hsent,
    radio_reads hr hboot htrace hcommands hpart (List.append_nil _)⟩

end
end Core
end CoreSplitter
