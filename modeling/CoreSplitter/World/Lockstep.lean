import CoreSplitter.World.Basic

/-! Lockstep: the core and a radio that answers in the shape its requests await agree on which request is
    being answered. -/

namespace CoreSplitter
open Bytes

/-! ### Requests that end on the radio -/

section
variable {h es : List Effect} {e : Effect}

@[simp] theorem terminated_append : terminated (h ++ es) = terminated h ++ terminated es := List.filterMap_append

theorem terminated_eq_nil (hes : ∀ e ∈ es, ∀ q, e.laneEvent ≠ some (.finish q)) : terminated es = [] := by
  refine List.filterMap_eq_nil_iff.mpr fun e he => ?_
  have hlane := hes e he
  rcases e with _ | _ | _ | _ | _ | ⟨q, _ | _⟩ | _ | _ | _
  all_goals first
    | rfl
    | exact absurd rfl (hlane q)

end

namespace Core

/-- The request in flight. -/
def held (c : Core) : List Queued := (c.inFlight.map InFlight.request).toList

/-- No request ends on the radio between `c` and `c'`. -/
def Unended (c c' : Core) : Prop := ∃ es, c'.out = c.out ++ es ∧ terminated es = []

section
variable {p : Effect → Prop} {orderly : Prop} {h es : List Effect} {c c₁ c' : Core} {env : Env} {t : Option Ticket}
  {f : InFlight} {code : UInt8} {frame : Bytes} {e : Event} {b b' : Bool}

theorem Accounted.balance (ha : Accounted orderly h c) : sentToRadio h = terminated h ++ c.held := by
  have hbalance := ha.lane.balance
  rw [started_laneEvents, finished_laneEvents] at hbalance
  exact hbalance

/-- What the slot held and what is sent to the radio ends there or is in flight. -/
theorem Accounted.balance_step (ha : Accounted orderly h c) (ha' : Accounted orderly (h ++ es) c') :
    c.held ++ sentToRadio es = terminated es ++ c'.held := by
  have hbefore := ha.balance
  have hafter := ha'.balance
  rw [sentToRadio_append, terminated_append, hbefore, List.append_assoc, List.append_assoc] at hafter
  exact List.append_cancel_left hafter

theorem Unended.refl : Unended c c := ⟨[], (List.append_nil _).symm, rfl⟩

theorem Unended.trans (h₁ : Unended c c₁) (h₂ : Unended c₁ c') : Unended c c' := by
  obtain ⟨es₁, ho₁, hs₁⟩ := h₁
  obtain ⟨es₂, ho₂, hs₂⟩ := h₂
  exact ⟨es₁ ++ es₂, by rw [ho₂, ho₁, List.append_assoc], by rw [terminated_append, hs₁, hs₂]; rfl⟩

theorem Kept.unended (h : Kept p c c') (hp : ∀ e, p e → e.laneEvent = none) : Unended c c' := by
  obtain ⟨es, hout, hes⟩ := h.out
  exact ⟨es, hout, terminated_eq_nil fun e he q => by rw [hp e (hes e he)]; exact nofun⟩

/-! ### What moves emit -/

theorem EmittedByMove.laneEvent {b : Bool} {e : Effect} (h : EmittedByMove b t e) :
    ∀ q, e.laneEvent ≠ some (.finish q) := by
  cases h with
  | side h => simp [h.lane]
  | relay h => simp [h.lane]
  | error h =>
    obtain ⟨_, _, _, _, -, rfl⟩ := h
    exact nofun
  | handed | radio | sendFailed | clientGone => exact nofun

theorem EmittedByMove.weaken {b : Bool} {e : Effect} (h : EmittedByMove b' t e) (hs : b = true → b' = true) :
    EmittedByMove b t e := by
  have hfalse (h : b' = false) : b = false := by
    cases b with
    | false => rfl
    | true => exact absurd (hs rfl) (by simp [h])
  cases h with
  | side h => exact .side h
  | relay h hnone => exact .relay h hnone
  | handed q => exact .handed q
  | radio q => exact .radio q
  | error h hsends => exact .error h (hfalse hsends)
  | sendFailed q hsends => exact .sendFailed q (hfalse hsends)
  | clientGone q => exact .clientGone q

/-- Between `c` and `c'` the core emits what moves do; where `b`, each request that is its turn is sent. -/
def Emitted (b : Bool) (t : Option Ticket) (c c' : Core) : Prop :=
  ∃ es, c'.out = c.out ++ es ∧ ∀ e ∈ es, EmittedByMove b t e

theorem Emitted.of_out (h : c'.out = c.out) : Emitted b t c c' :=
  ⟨[], by rw [h, List.append_nil], List.forall_mem_nil _⟩

theorem Emitted.trans (h₁ : Emitted b t c c₁) (h₂ : Emitted b t c₁ c') : Emitted b t c c' := by
  obtain ⟨es₁, ho₁, hs₁⟩ := h₁
  obtain ⟨es₂, ho₂, hs₂⟩ := h₂
  refine ⟨es₁ ++ es₂, by rw [ho₂, ho₁, List.append_assoc], fun e he => ?_⟩
  exact (List.mem_append.mp he).elim (hs₁ e) (hs₂ e)

theorem Kept.emitted (h : Kept (Effect.Side t) c c') : Emitted b t c c' :=
  h.out.imp fun _ h => ⟨h.1, fun e he => .side (h.2 e he)⟩

theorem Moves.emitted (h : Moves orderly env t c c') (hsends : b = true → c.canSend env = true) :
    Emitted b t c c' :=
  h.out.imp fun _ h => ⟨h.1, fun e he => (h.2 e he).weaken hsends⟩

theorem Emitted.unended (h : Emitted b t c c') : Unended c c' :=
  h.imp fun _ h => ⟨h.1, terminated_eq_nil fun e he => (h.2 e he).laneEvent⟩

theorem Drain.unended (hd : Drain c c') : Unended c c' := by
  induction hd with
  | done => exact .refl
  | @lost c c' q rest _ _ ih =>
    have hfail : Kept (IsErrorOf q) (c.popped rest) ((c.popped rest).failTo q) := failTo_still.toKept
    have hlane : ∀ e, IsErrorOf q e → e.laneEvent = none := by
      rintro e ⟨_, _, _, _, -, rfl⟩
      rfl
    have hfailed : Unended (c.popped rest) ((c.popped rest).failTo q) := hfail.unended hlane
    exact (hfailed.trans ⟨[.ended q .drained], rfl, rfl⟩).trans ih

/-! ### Turns and the request in flight -/

/-- The time tick of this turn ends no request. -/
def Event.Timely (c : Core) : Event → Prop
  | .timeoutTick env => ∀ f ∈ c.inFlight, env.now - f.lastActivity < inFlightTimeout
  | _ => True

/-- The writer still takes commands. -/
def Event.WriterOpen : Event → Prop
  | .command env _ | .radio env _ | .timeoutTick env | .maintenanceTick env => env.writerOpen = true
  | .disconnected _ => False
  | .idle => True

instance : (e : Event) → Decidable (e.Timely c)
  | .timeoutTick env =>
    inferInstanceAs (Decidable (∀ f ∈ c.inFlight, env.now - f.lastActivity < inFlightTimeout))
  | .command .. | .radio .. | .maintenanceTick _ | .disconnected _ | .idle => isTrue trivial

instance : (e : Event) → Decidable e.WriterOpen
  | .command env _ | .radio env _ | .timeoutTick env | .maintenanceTick env =>
    inferInstanceAs (Decidable (env.writerOpen = true))
  | .disconnected _ => isFalse id
  | .idle => isTrue trivial

theorem handle_emitted (hs : c.handle e = .ok c') (hvalid : c.clients.Valid) (hlocal : e.isLocal = true)
    (htimely : e.Timely c) (hsends : b = true → c.radioSendTx = true ∧ e.WriterOpen) :
    Emitted b none c c' ∧ c'.radioSendTx = c.radioSendTx ∧ c.clients.Later c'.clients := by
  cases e with
  | command env cmd =>
    have hm := (handleClientCommand_works hs hvalid).moves
    exact ⟨hm.emitted fun h => by simpa [canSend, Event.WriterOpen] using hsends h, hm.link, hm.onward.later⟩
  | timeoutTick env =>
    cases hs
    rcases checkInFlightTimeout_cases c env with heq | ⟨f, hslot, hlate, -⟩
    · rw [heq]
      exact ⟨.of_out rfl, rfl, .refl⟩
    · exact absurd (htimely f hslot) (Nat.not_lt.mpr hlate)
  | maintenanceTick env =>
    cases hs
    have hm : Moves c.Idle env none c (c.resync env) := resync_works.moves
    exact ⟨(hm.emitted fun h => by simpa [canSend, Event.WriterOpen] using hsends h).trans (.of_out rfl), hm.link,
      hm.onward.later⟩
  | idle =>
    cases hs
    exact ⟨.of_out rfl, rfl, Clients.lock_later⟩
  | radio | disconnected => cases hlocal

theorem finish_terminated : ∃ es, (c.finish env f code frame).out = c.out ++ es ∧ terminated es = [f.request] := by
  have hstill : Still (Effect.OfReply f) c (c.deliverReply env f code frame) := deliverReply_still
  obtain ⟨es, hout, hes⟩ := hstill.out
  refine ⟨es ++ [.ended f.request (.replied code)], by rw [← List.append_assoc, ← hout]; rfl, ?_⟩
  have hnil : terminated es = [] := terminated_eq_nil fun e he q => by rw [(hes e he).lane]; exact nofun
  rw [terminated_append, hnil]
  rfl

/-- A frame ends the request in flight exactly when its code completes what that awaits. -/
theorem handleRadioRx_terminated (hs : c.handleRadioRx env frame = .ok c') :
    (Unended c c' ∧ ∀ f ∈ c.inFlight, ∀ code ∈ frame.head?, f.awaiting.classify code ≠ (true, true)) ∨
    ∃ f code es, c.inFlight = some f ∧ frame.head? = some code ∧ f.awaiting.classify code = (true, true) ∧
      c'.out = c.out ++ es ∧ terminated es = [f.request] := by
  rcases handleRadioRx_routed hs with ⟨rfl, rfl⟩ | ⟨code, rest, c₁, rfl, hcache, hr⟩
  · exact Or.inl ⟨.refl, fun _ _ _ => nofun⟩
  · have hcached : Kept (Effect.Side none) c (c₁.recordRaw env code (code :: rest)) :=
      (cacheResponse_kept hcache).trans recordRaw_still.toKept
    have hbefore : Unended c (c₁.recordRaw env code (code :: rest)) := (hcached.emitted (b := false)).unended
    cases hr with
    | finish f hslot hcode hm =>
      obtain ⟨es₁, hout₁, hes₁⟩ := hbefore
      obtain ⟨es₂, hout₂, hes₂⟩ : ∃ es, ((c₁.recordRaw env code (code :: rest)).finish env f code (code :: rest)).out =
        (c₁.recordRaw env code (code :: rest)).out ++ es ∧ terminated es = [f.request] := finish_terminated
      obtain ⟨es₃, hout₃, hes₃⟩ := (hm.emitted (b := false) nofun).unended
      refine Or.inr ⟨f, code, es₁ ++ es₂ ++ es₃, hcached.slot ▸ hslot, rfl, hcode, ?_, ?_⟩
      · rw [hout₃, hout₂, hout₁, List.append_assoc, List.append_assoc, List.append_assoc]
      · rw [terminated_append, terminated_append, hes₁, hes₂, hes₃]
        rfl
    | part f hslot hcode heq =>
      have hpart : Unended (c₁.recordRaw env code (code :: rest)) c' := by
        have hstill : Kept (Effect.OfReply f) (c₁.recordRaw env code (code :: rest))
            ((c₁.recordRaw env code (code :: rest)).deliverReply env f code (code :: rest)) := deliverReply_still.toKept
        rw [heq]
        exact hstill.unended fun _ he => he.lane
      refine Or.inl ⟨hbefore.trans hpart, fun g hg code' hcode' => ?_⟩
      cases hcode'
      cases (hcached.slot.symm.trans hslot).symm.trans hg
      rw [hcode]
      exact nofun
    | other hcode hm =>
      refine Or.inl ⟨hbefore.trans (hm.emitted (b := false) nofun).unended, fun g hg code' hcode' heq => ?_⟩
      cases hcode'
      have hfalse := hcode g (hcached.slot.trans hg)
      rw [heq] at hfalse
      cases hfalse

/-! ### A new link -/

theorem unlinked_terminated : ∃ es, c.unlinked.out = c.out ++ es ∧ terminated es = c.held := by
  unfold unlinked
  dsimp only
  split
  · rename_i f hslot
    have hslot : c.inFlight = some f := hslot
    let c₁ : Core := { c with radioSendTx := false, radioUp := false, inFlight := none }
    obtain ⟨es, hout, hes⟩ := (failTo_still (c := c₁) (q := f.request)).out
    refine ⟨es ++ [.ended f.request .linkLost], by rw [← List.append_assoc]; exact congrArg (· ++ _) hout, ?_⟩
    have hnil : terminated es = [] := terminated_eq_nil fun e he q => by
      obtain ⟨_, _, _, _, -, rfl⟩ := hes e he
      exact nofun
    rw [terminated_append, hnil]
    simp [terminated, held, hslot]
  · rename_i hnone
    have hnone : c.inFlight = none := hnone
    exact ⟨[], (List.append_nil _).symm, by simp [terminated, held, hnone]⟩

theorem Attempted.emitted {a : Attempt} {ok : Bool} (ha : Attempted c a ok c') (hfree : c.inFlight = none)
    (hqueue : c.pendingQueue = []) (hsends : b = true → a.syncEnv.writerOpen = true) : Emitted b none c c' := by
  have hlink : Emitted b none c { c with radioSendTx := true } := .of_out rfl
  cases ha with
  | unconnected => exact .of_out rfl
  | uninitialized hs => exact (hlink.trans hs.toKept.emitted).trans (.of_out rfl)
  | @synced c₁ hs =>
    have hmoves : Moves True a.syncEnv none c₁ (c₁.syncFromRadio a.syncEnv) :=
      syncFromRadio_moves (hs.slot.trans hfree) (hs.queue.trans hqueue)
    have hsync : Emitted b none c₁ (c₁.syncFromRadio a.syncEnv) :=
      hmoves.emitted fun h => by simp [canSend, hs.link, hsends h]
    exact ((hlink.trans hs.toKept.emitted).trans hsync).trans (.of_out rfl)

theorem reconnectLoop_emitted {attempts : List Attempt} (hs : c.reconnectLoop attempts = .ok c')
    (hfree : c.inFlight = none) (hqueue : c.pendingQueue = [])
    (hsends : b = true → ∀ a ∈ attempts, a.syncEnv.writerOpen = true) : Emitted b none c c' := by
  induction attempts generalizing c with
  | nil =>
    cases hs
    exact .of_out rfl
  | cons a rest ih =>
    obtain ⟨⟨ok, c₁⟩, hattempt, hs⟩ := Except.of_bind_eq_ok hs
    have ha := attemptRadio_attempted hattempt
    have h₁ := ha.emitted hfree hqueue fun h => hsends h a List.mem_cons_self
    cases ok with
    | true =>
      cases hs
      exact h₁
    | false =>
      obtain ⟨hfree₁, hqueue₁⟩ := ha.free_of_failed hfree hqueue
      exact h₁.trans (ih hs hfree₁ hqueue₁ fun h a ha => hsends h a (List.mem_cons_of_mem _ ha))

/-- The loss of the link ends the request in flight. -/
theorem reconnectRadio_terminated {attempts : List Attempt} (hs : c.reconnectRadio attempts = .ok c') :
    ∃ es, c'.out = c.out ++ es ∧ terminated es = c.held := by
  obtain ⟨hfree, hqueue⟩ := failAll_drain.done_free (unlinked_free (c := c))
  obtain ⟨es₁, hout₁, hes₁⟩ := unlinked_terminated (c := c)
  obtain ⟨es₂, hout₂, hes₂⟩ := (failAll_drain (c := c)).unended.trans
    (reconnectLoop_emitted (b := false) hs hfree hqueue nofun).unended
  exact ⟨es₁ ++ es₂, by rw [hout₂, hout₁, List.append_assoc], by rw [terminated_append, hes₁, hes₂, List.append_nil]⟩

/-- Nothing is failed when nothing waits. -/
theorem failAll_of_free (hfree : c.inFlight = none) (hqueue : c.pendingQueue = []) : c.failAll.out = c.out := by
  have hunlinked : c.unlinked = { c with radioSendTx := false, radioUp := false } := by simp [unlinked, hfree]
  have hdrain : c.failAll = c.unlinked.failFrom c.pendingQueue := by
    simp [failAll, hunlinked, hfree]
  rw [hdrain, hqueue, hunlinked]
  rfl

theorem start_emitted {config : Config} {db : NodeState} {first : Attempt} {attempts : List Attempt}
    (hs : (Core.new config db).start env first attempts = .ok c')
    (hsends : b = true → first.syncEnv.writerOpen = true ∧ ∀ a ∈ attempts, a.syncEnv.writerOpen = true) :
    ∀ e ∈ c'.out, EmittedByMove b none e := by
  obtain ⟨⟨ok, c₁⟩, hattempt, hs⟩ := Except.of_bind_eq_ok hs
  have ha := attemptRadio_attempted hattempt
  have h₁ := ha.emitted rfl rfl fun h => (hsends h).1
  have hblobs {c₂ : Core} (h : c₂.restoreBlobs env = .ok c') : Emitted b none c₂ c' :=
    (restoreBlobs_still (t := none) h).toKept.emitted
  have hall : Emitted b none (Core.new config db) c' := by
    cases ok with
    | true => exact h₁.trans (hblobs hs)
    | false =>
      obtain ⟨c₂, hreconnect, hs⟩ := Except.of_bind_eq_ok hs
      obtain ⟨hfree₁, hqueue₁⟩ := ha.free_of_failed rfl rfl
      obtain ⟨hfree, hqueue⟩ := failAll_drain.done_free (unlinked_free (c := c₁))
      have hfailed : Emitted b none c₁ c₁.failAll := .of_out (failAll_of_free hfree₁ hqueue₁)
      have hloop := reconnectLoop_emitted hreconnect hfree hqueue fun h => (hsends h).2
      exact (h₁.trans (hfailed.trans hloop)).trans (hblobs hs)
  obtain ⟨es, hout, hes⟩ := hall
  rw [hout]
  exact hes

end
end Core

/-! ### Shapes -/

/-- A telemetry request about the radio itself. -/
def SelfTelemetry (p : Command) : Prop := p.code = 0x27 ∧ p.bytes.length = 4

theorem awaitingFor_selfTelemetry {p : Command} (h : SelfTelemetry p) : awaitingFor p = .oneOf [0x8B] := by
  simp [awaitingFor, h.1, h.2]

theorem not_classify_push {codes : List UInt8} {code : UInt8} (hcodes : codes.any isPushEvent = false)
    (hpush : isPushEvent code = true) : ((Awaiting.oneOf codes).classify code).1 = false := by
  have hok : code ≠ 0x01 := by
    rintro rfl
    exact absurd hpush (by decide)
  have hmem : code ∉ codes := fun hmem => List.any_eq_false.mp hcodes code hmem hpush
  simp [Awaiting.classify, hok, hmem]

/-- A push is awaited by a telemetry request about the radio itself, and by nothing else. -/
theorem classify_push {p : Command} {code : UInt8} (hpush : isPushEvent code = true)
    (h : ((awaitingFor p).classify code).1 = true) : SelfTelemetry p ∧ code = 0x8B := by
  have hother {codes : List UInt8} (hcodes : codes.any isPushEvent = false)
      (h : ((Awaiting.oneOf codes).classify code).1 = true) : SelfTelemetry p ∧ code = 0x8B := by
    rw [not_classify_push hcodes hpush] at h
    cases h
  unfold awaitingFor at h
  split at h
  case h_10 hcode =>
    split at h
    · rename_i hlen
      refine ⟨⟨hcode, hlen⟩, ?_⟩
      rcases (by simpa [Awaiting.classify] using h : code = 1 ∨ code = 0x8B) with rfl | rfl
      · exact absurd hpush (by decide)
      · rfl
    · exact hother rfl h
  case h_1 =>
    rcases (by simpa [Awaiting.classify] using h : (code = 4 ∨ code = 1) ∨ code = 2 ∨ code = 3) with
      (rfl | rfl) | rfl | rfl <;> exact absurd hpush (by decide)
  all_goals first
    | exact hother rfl h
    | simp [Awaiting.classify, hpush] at h

/-! ### Lockstep -/

namespace Radio
variable {σ : Type}

/-- It never pushes what a telemetry request about itself is answered with. -/
def Quiet (R : Radio σ) : Prop := ∀ s frame s', R.push s frame s' → frame.head? ≠ some 0x8B

/-- Each request is answered in the shape it is awaited in, what is pushed has a code of its own, and where
    telemetry is pushed, a telemetry request about the radio itself does not fail. -/
structure Shaped (R : Radio σ) : Prop where
  reply : ∀ s q frame last s', R.reply s q frame last s' →
    ∃ code ∈ frame.head?, (awaitingFor q.payload).classify code = (true, last)
  push : ∀ s frame s', R.push s frame s' → ∃ code ∈ frame.head?, isPushEvent code = true
  telemetry : R.Quiet ∨ ∀ s q frame last s', R.reply s q frame last s' → SelfTelemetry q.payload →
    frame.head? = some 0x8B

/-- A quiet radio that answers in shape. -/
def inShape : Radio Unit where
  take _ _ _ := True
  reply _ q frame last _ := ∃ code ∈ frame.head?, (awaitingFor q.payload).classify code = (true, last)
  push _ frame _ := ∃ code ∈ frame.head?, isPushEvent code = true ∧ code ≠ 0x8B
  drift _ _ := True
  relink _ _ := True

section
variable {s s' : Unit} {q : Queued} {frame : Bytes} {last : Bool}

instance : Decidable (inShape.take s q s') := isTrue trivial
instance : Decidable (inShape.reply s q frame last s') :=
  inferInstanceAs (Decidable (∃ code ∈ frame.head?, (awaitingFor q.payload).classify code = (true, last)))
instance : Decidable (inShape.push s frame s') :=
  inferInstanceAs (Decidable (∃ code ∈ frame.head?, isPushEvent code = true ∧ code ≠ 0x8B))
instance : Decidable (inShape.drift s s') := isTrue trivial

end

theorem inShape_quiet : inShape.Quiet := by
  rintro s frame s' ⟨code, hcode, -, hne⟩ h
  exact hne (Option.some.inj (hcode.symm.trans h))

theorem inShape_shaped : inShape.Shaped where
  reply _ _ _ _ _ h := h
  push _ _ _ h := h.imp fun _ h => ⟨h.1, h.2.1⟩
  telemetry := Or.inl inShape_quiet

/-- The radio can emit `f`. -/
def Emits (R : Radio σ) (f : Frame) : Prop :=
  match f.request with
  | none => ∃ s s', R.push s f.body s'
  | some q => ∃ s s', R.reply s q f.body f.last s'

end Radio

namespace World
variable {σ : Type} {R : Radio σ} {allow : World σ → List (List FrontendOp) → Core.Event → Prop} {w w₁ : World σ}
  {q : Core.Attempt → Prop} {c : Core} {f : Frame} {rest : List Frame} {s : σ} {frontend : List (List FrontendOp)}
  {env : Env} {e : Core.Event}

/-- The account of a world whose syncs find the writer open. -/
def Accounted (w : World σ) : Prop := Core.Accounted True w.history w.core

theorem Run.accounted (hr : Run R allow w w₁) (hstart : Started (fun a => a.syncEnv.writerOpen = true) w)
    (hopen : ∀ w frontend e, allow w frontend e → e.SyncOpen) : w₁.Accounted ∧ w₁.core.Idle := by
  obtain ⟨ha, hidle⟩ : Core.Accounted True w₁.history w₁.core ∧ (True → w₁.core.Idle) :=
    (hr.reachable hstart).accounted (fun _ _ h => h) fun _ _ _ _ ⟨w, _, h⟩ => hopen w _ _ h
  exact ⟨ha, hidle trivial⟩

/-- The requests that the radio still owes a last reply are the one in flight and, before it, telemetry requests
    that a push completed too early. -/
structure Lockstep (R : Radio σ) (w : World σ) : Prop where
  owes : ∃ early, w.wire.Owes (early ++ w.core.held) ∧ (∀ q ∈ early, SelfTelemetry q.payload) ∧
    (R.Quiet → early = [])
  emitted : ∀ f ∈ w.wire.back, R.Emits f

theorem Lockstep.fresh (hwire : w.wire = .fresh w.core.held) : Lockstep R w := by
  refine ⟨⟨[], ?_, List.forall_mem_nil _, fun _ => rfl⟩, ?_⟩
  · rw [hwire]
    exact .fresh
  · rw [hwire]
    exact List.forall_mem_nil _

/-- A turn that ends no request. -/
theorem Lockstep.turned {o : Option Frame} (hl : Lockstep R w) (ha : w.Accounted) (ha' : (w.turned c o).Accounted)
    (hended : terminated c.out = []) : Lockstep R (w.turned c o) := by
  obtain ⟨early, howes, hearly, hquiet⟩ := hl.owes
  have hbalance : w.core.held ++ sentToRadio c.out = c.held := by
    have h := Core.Accounted.balance_step ha (by simpa [Accounted] using ha')
    rwa [hended] at h
  refine ⟨⟨early, ?_, hearly, hquiet⟩, hl.emitted⟩
  have hsend := howes.send (sentToRadio c.out)
  rw [List.append_assoc, hbalance] at hsend
  exact hsend

/-- What a reply that arrives now replies to. -/
theorem Lockstep.replied (hl : Lockstep R w) (hback : w.wire.back = f :: rest) {q : Queued} (hq : f.request = some q)
    (h : R.Quiet ∨ ¬ SelfTelemetry q.payload) : w.core.held = [q] := by
  obtain ⟨early, howes, hearly, hquiet⟩ := hl.owes
  obtain ⟨rest', hrest⟩ : ∃ rest', early ++ w.core.held = q :: rest' := by
    rcases howes.received hback with ⟨hnone, -⟩ | ⟨q', rest', heq, hq', -⟩ | ⟨q', rest', heq, hq', -⟩
    · rw [hnone] at hq
      cases hq
    · cases hq'.symm.trans hq
      exact ⟨rest', heq⟩
    · cases hq'.symm.trans hq
      exact ⟨rest', heq⟩
  cases early with
  | nil =>
    simp only [List.nil_append] at hrest
    unfold Core.held at hrest ⊢
    cases hslot : w.core.inFlight with
    | none => simp [hslot] at hrest
    | some g => simp_all
  | cons q' early =>
    obtain ⟨rfl, -⟩ := List.cons.inj hrest
    rcases h with h | h
    · cases hquiet h
    · exact absurd (hearly q' List.mem_cons_self) h

theorem mem_held {q : Queued} (h : q ∈ c.held) : ∃ g, c.inFlight = some g ∧ g.request = q := by
  unfold Core.held at h
  simpa using h

theorem held_eq_of_slot {g : InFlight} (h : c.inFlight = some g) : c.held = [g.request] := by
  simp [Core.held, h]

theorem emitted_received {f' : Frame} (hback : w.wire.back = f :: rest) (hf : f' ∈ rest) : f' ∈ w.wire.back :=
  hback ▸ List.mem_cons_of_mem _ hf

/-- The next frame of the radio is handled. -/
theorem Lockstep.delivered (hshape : R.Shaped) (hl : Lockstep R w) (ha : w.Accounted)
    (ha' : ((w.received rest).turned c (some f)).Accounted) (hback : w.wire.back = f :: rest)
    (hs : w.core.step frontend (.radio env f.body) = .ok c) : Lockstep R ((w.received rest).turned c (some f)) := by
  obtain ⟨early, howes, hearly, hquiet⟩ := hl.owes
  have hemitted : ∀ f' ∈ rest, R.Emits f' := fun f' hf => hl.emitted f' (emitted_received hback hf)
  have hf : R.Emits f := hl.emitted f (by simp [hback])
  have hbalance : w.core.held ++ sentToRadio c.out = terminated c.out ++ c.held :=
    Core.Accounted.balance_step ha (by simpa [Accounted] using ha')
  -- What stays owed once the frame is received, whatever the turn ends.
  have hsend {qs early' : List Queued} (h : (w.wire.receive rest).Owes qs)
      (hearly' : ∀ q ∈ early', SelfTelemetry q.payload) (hquiet' : R.Quiet → early' = [])
      (heq : qs ++ sentToRadio c.out = early' ++ c.held) : Lockstep R ((w.received rest).turned c (some f)) :=
    ⟨⟨early', heq ▸ h.send (sentToRadio c.out), hearly', hquiet'⟩, hemitted⟩
  rcases Core.handleRadioRx_terminated hs with ⟨⟨es, hout, hes⟩, hunended⟩ |
    ⟨g, code, es, hslot, hcode, hends, hout, hes⟩
  · -- The frame ends no request.
    have hout : c.out = es := by simpa [Core.begin] using hout
    rw [hout, hes, List.nil_append, ← hout] at hbalance
    rcases howes.received hback with ⟨-, h⟩ | ⟨q, qs, -, -, -, h⟩ | ⟨q, qs, heq, hq, hlast, h⟩
    · exact hsend h hearly hquiet (by rw [List.append_assoc, hbalance])
    · exact hsend h hearly hquiet (by rw [List.append_assoc, hbalance])
    · cases early with
      | nil =>
        -- It would have ended the request in flight.
        simp only [List.nil_append] at heq
        obtain ⟨g, hslot, rfl⟩ := mem_held (heq ▸ List.mem_cons_self : q ∈ w.core.held)
        rw [Radio.Emits, hq] at hf
        obtain ⟨s, s', hreply⟩ := hf
        obtain ⟨code, hcode, hclass⟩ := hshape.reply _ _ _ _ _ hreply
        have hawaiting := Core.Accounted.awaiting ha g hslot
        rw [hlast] at hclass
        exact absurd (hawaiting ▸ hclass) (hunended g hslot code hcode)
      | cons q' early =>
        obtain rfl := (List.cons.inj heq).1
        have hqs : early ++ w.core.held = qs := (List.cons.inj heq).2
        exact hsend h (fun q hq => hearly q (List.mem_cons_of_mem _ hq)) (fun hq => by cases hquiet hq)
          (by rw [← hqs, List.append_assoc, hbalance])
  · -- The frame ends the request in flight.
    have hslot : w.core.inFlight = some g := hslot
    have hheld := held_eq_of_slot hslot
    have hawaiting : g.awaiting = awaitingFor g.request.payload := Core.Accounted.awaiting ha g hslot
    have hout : c.out = es := by simpa [Core.begin] using hout
    rw [hheld, hout, hes, ← hout] at hbalance
    have hsent : sentToRadio c.out = c.held := List.append_cancel_left hbalance
    have hsnoc (hself : SelfTelemetry g.request.payload) : ∀ q ∈ early ++ [g.request], SelfTelemetry q.payload := by
      intro q hq
      rcases List.mem_append.mp hq with hq | hq
      · exact hearly q hq
      · exact List.mem_singleton.mp hq ▸ hself
    rcases howes.received hback with ⟨hnone, h⟩ | ⟨q, qs, heq, hq, hlast, h⟩ | ⟨q, qs, heq, hq, hlast, h⟩
    · -- A push did, so the request is a telemetry request that the radio still owes the reply.
      rw [Radio.Emits, hnone] at hf
      obtain ⟨s, s', hpush⟩ := hf
      obtain ⟨code', hcode', hispush⟩ := hshape.push _ _ _ hpush
      cases hcode'.symm.trans hcode
      have hfirst : ((awaitingFor g.request.payload).classify code).1 = true := by
        rw [← hawaiting, hends]
      obtain ⟨hself, rfl⟩ := classify_push hispush hfirst
      refine hsend h (hheld.symm ▸ hsnoc hself) (fun hq => absurd hcode (hq _ _ _ hpush)) ?_
      rw [hsent]
    · -- A frame that does not complete its request.
      rw [Radio.Emits, hq] at hf
      obtain ⟨s, s', hreply⟩ := hf
      obtain ⟨code', hcode', hclass⟩ := hshape.reply _ _ _ _ _ hreply
      cases hcode'.symm.trans hcode
      exfalso
      cases early with
      | nil =>
        simp only [List.nil_append, hheld] at heq
        obtain ⟨rfl, -⟩ := List.cons.inj heq
        rw [← hawaiting, hends, hlast] at hclass
        cases hclass
      | cons q' early =>
        obtain ⟨rfl, -⟩ := List.cons.inj heq
        rw [awaitingFor_selfTelemetry (hearly _ List.mem_cons_self), hlast] at hclass
        simp [Awaiting.classify] at hclass
    · cases early with
      | nil =>
        simp only [List.nil_append, hheld] at heq
        obtain ⟨rfl, rfl⟩ := List.cons.inj heq
        exact hsend h (List.forall_mem_nil _) (fun _ => rfl) (by simp [hsent])
      | cons q' early =>
        -- The reply to an earlier telemetry request, which ends one that is in flight now.
        obtain rfl := (List.cons.inj heq).1
        have hqs : early ++ w.core.held = qs := (List.cons.inj heq).2
        rw [Radio.Emits, hq] at hf
        obtain ⟨s, s', hreply⟩ := hf
        have hcode' : f.body.head? = some 0x8B := by
          rcases hshape.telemetry with hquiet' | htelemetry
          · cases hquiet hquiet'
          · exact htelemetry _ _ _ _ _ hreply (hearly _ List.mem_cons_self)
        cases hcode'.symm.trans hcode
        have hfirst : ((awaitingFor g.request.payload).classify 0x8B).1 = true := by
          rw [← hawaiting, hends]
        obtain ⟨hself, -⟩ := classify_push (by decide) hfirst
        have hearly' : ∀ q ∈ early ++ [g.request], SelfTelemetry q.payload := fun q hq =>
          hsnoc hself q (List.mem_cons_of_mem _ hq)
        exact hsend h hearly' (fun hq => by cases hquiet hq) (by rw [← hqs, hsent, hheld])

theorem Lockstep.emit (hl : Lockstep R w) {wire : Wire Queued Bytes} {f : Frame}
    (howes : ∀ qs, w.wire.Owes qs → wire.Owes qs) (hback : wire.back = w.wire.back ++ [f]) (hf : R.Emits f) :
    Lockstep R { w with wire := wire, radio := s } := by
  obtain ⟨early, h, hearly, hquiet⟩ := hl.owes
  refine ⟨⟨early, howes _ h, hearly, hquiet⟩, fun f' hf' => ?_⟩
  rcases List.mem_append.mp (hback ▸ hf') with hf' | hf'
  · exact hl.emitted f' hf'
  · exact List.mem_singleton.mp hf' ▸ hf

/-- Lockstep is kept by every step in which no request times out. -/
theorem Lockstep.step (hshape : R.Shaped) (hl : Lockstep R w) (ha : w.Accounted) (ha' : w₁.Accounted)
    (hs : Step R allow w w₁) (htimely : ∀ w frontend e, allow w frontend e → e.Timely w.core) : Lockstep R w₁ := by
  cases hs with
  | @turn frontend e c hlocal hallow hs =>
    have hvalid : w.core.clients.Valid := Core.Accounted.valid ha
    have htimely : e.Timely (w.core.begin frontend) := by
      have h := htimely _ _ _ hallow
      cases e <;> exact h
    obtain ⟨es, hout, hes⟩ : Core.Unended (w.core.begin frontend) c :=
      (Core.handle_emitted (b := false) hs ⟨hvalid.born, hvalid.nodup⟩ hlocal htimely nofun).1.unended
    exact hl.turned ha ha' (by simpa [hout, Core.begin] using hes)
  | deliver hback _ hs => exact hl.delivered hshape ha ha' hback hs
  | @relink frontend attempts c s hallow hs _ =>
    obtain ⟨es, hout, hes⟩ : ∃ es, c.out = (w.core.begin frontend).out ++ es ∧ terminated es = w.core.held :=
      Core.reconnectRadio_terminated hs
    have hout : c.out = es := by simpa [Core.begin] using hout
    have hbalance : w.core.held ++ sentToRadio c.out = terminated c.out ++ c.held :=
      Core.Accounted.balance_step ha (by simpa [Accounted] using ha')
    rw [hout, hes, ← hout] at hbalance
    exact .fresh (by rw [relinked_wire, List.append_cancel_left hbalance]; rfl)
  | @take q rest s hsent hfree _ =>
    obtain ⟨early, h, hearly, hquiet⟩ := hl.owes
    exact ⟨⟨early, h.take hsent hfree, hearly, hquiet⟩, hl.emitted⟩
  | @reply q frame last s hserving hradio =>
    refine hl.emit (fun _ h => h.reply hserving frame last) rfl ?_
    exact ⟨_, _, hradio⟩
  | @push frame s hradio =>
    refine hl.emit (fun _ h => h.push frame) rfl ?_
    exact ⟨_, _, hradio⟩
  | drift => exact ⟨hl.owes, hl.emitted⟩

theorem Started.history_eq (hstart : Started q w) : w.history = w.core.out := by
  obtain ⟨_, _, _, _, _, -, -, -, -, hlog⟩ := hstart
  simp [history, hlog]

theorem Started.emitted (hstart : Started (fun a => a.syncEnv.writerOpen = true) w) :
    ∀ e ∈ w.history, Core.EmittedByMove true none e := by
  rw [hstart.history_eq]
  obtain ⟨config, db, env, first, attempts, hfirst, hattempts, hcore, -, -⟩ := hstart
  exact Core.start_emitted hcore fun _ => ⟨hfirst, hattempts⟩

/-- The request in flight is all that was sent. -/
theorem Started.sent (hstart : Started (fun a => a.syncEnv.writerOpen = true) w) :
    sentToRadio w.history = w.core.held := by
  have hreach : Core.ReachableWith (fun a => a.syncEnv.writerOpen = true) (fun _ _ _ => False) w.history w.core := by
    rw [hstart.history_eq]
    obtain ⟨config, db, env, first, attempts, hfirst, hattempts, hcore, -, -⟩ := hstart
    exact ⟨config, db, env, first, attempts, w.core, [], hfirst, hattempts, hcore, .refl _, (List.append_nil _).symm⟩
  obtain ⟨ha, -⟩ : Core.Accounted True w.history w.core ∧ (True → w.core.Idle) :=
    hreach.accounted (fun _ _ h => h) fun _ _ _ _ => False.elim
  have hbalance := ha.balance
  rwa [terminated_eq_nil fun e he => (hstart.emitted e he).laneEvent, List.nil_append] at hbalance

theorem Started.lockstep (hstart : Started (fun a => a.syncEnv.writerOpen = true) w) : Lockstep R w := by
  have hsent := hstart.sent
  rw [hstart.history_eq] at hsent
  obtain ⟨_, _, _, _, _, -, -, -, hwire, -⟩ := hstart
  exact .fresh (by rw [hwire, hsent])

theorem Run.lockstep (hr : Run R allow w w₁) (hshape : R.Shaped)
    (hstart : Started (fun a => a.syncEnv.writerOpen = true) w)
    (hopen : ∀ w frontend e, allow w frontend e → e.SyncOpen)
    (htimely : ∀ w frontend e, allow w frontend e → e.Timely w.core) : Lockstep R w₁ :=
  hr.invariant hstart.lockstep fun _ _ hr hl hs =>
    hl.step hshape (hr.accounted hstart hopen).1 ((hr.step hs).accounted hstart hopen).1 hs htimely

/-- A quiet radio owes the last reply to what is in flight, and to nothing else. -/
theorem Lockstep.owes_of_quiet (hl : Lockstep R w) (hquiet : R.Quiet) : w.wire.Owes w.core.held := by
  obtain ⟨early, howes, -, hearly⟩ := hl.owes
  rwa [hearly hquiet, List.nil_append] at howes

/-- A frame of a quiet radio is a push, or replies to what is in flight in the shape it is awaited in. -/
theorem Lockstep.replies_of_quiet (hl : Lockstep R w) (hshape : R.Shaped) (hquiet : R.Quiet) (hf : f ∈ w.wire.back) :
    (f.request = none ∧ ∃ code ∈ f.body.head?, isPushEvent code = true) ∨
    ∃ q, f.request = some q ∧ w.core.held = [q] ∧
    ∃ code ∈ f.body.head?, (awaitingFor q.payload).classify code = (true, f.last) := by
  have hemits : R.Emits f := hl.emitted f hf
  unfold Radio.Emits at hemits
  split at hemits
  · rename_i hnone
    obtain ⟨_, _, hpush⟩ := hemits
    exact Or.inl ⟨hnone, hshape.push _ _ _ hpush⟩
  · rename_i q hq
    obtain ⟨_, _, hreply⟩ := hemits
    have hmem : q ∈ w.core.held := (hl.owes_of_quiet hquiet).request_mem hf hq
    obtain ⟨g, hslot, rfl⟩ := mem_held hmem
    exact Or.inr ⟨_, hq, held_eq_of_slot hslot, hshape.reply _ _ _ _ _ hreply⟩

/-- What is in flight after a turn was so before, or the turn sent it. -/
theorem held_cases {o : Option Frame} {q : Queued} (ha : w.Accounted) (ha' : (w.turned c o).Accounted)
    (hq : q ∈ c.held) : q ∈ w.core.held ∨ .radio q ∈ c.out := by
  have hbalance : w.core.held ++ sentToRadio c.out = terminated c.out ++ c.held :=
    Core.Accounted.balance_step ha (by simpa [Accounted] using ha')
  have hmem : q ∈ w.core.held ++ sentToRadio c.out := hbalance ▸ List.mem_append_right _ hq
  exact (List.mem_append.mp hmem).imp id mem_sentToRadio.mp

end World
end CoreSplitter
