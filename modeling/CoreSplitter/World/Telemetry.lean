import CoreSplitter.Theorems.Conversions
import CoreSplitter.Theorems.Sessions
import CoreSplitter.World.LateReplies
import CoreSplitter.World.Replies

/-! Telemetry: a telemetry request about the radio itself is answered with the code that the telemetry of remote
    nodes is pushed with. -/

namespace CoreSplitter
open Bytes

theorem mem_repliesTo {cid : ClientId} {t : Ticket} {version : UInt8} {frame : Bytes} {h : List Effect}
    (hmem : (t, version, frame) ∈ repliesTo cid h) : ∃ name, .client cid name version frame (.reply t) ∈ h := by
  obtain ⟨e, he, heq⟩ := List.mem_filterMap.mp hmem
  unfold Effect.replyTo at heq
  split at heq
  · split at heq
    · rename_i hcid
      cases heq
      exact ⟨_, hcid ▸ he⟩
    · cases heq
  · cases heq

namespace Core

section
variable {c c₁ c' : Core} {env : Env} {f : InFlight} {code : UInt8} {payload : Bytes} {t : Option Ticket} {b : Bool}
  {e : Effect} {a : Attempt} {ok : Bool}

/-! ### What a frame of telemetry does -/

/-- Nobody waits for it. -/
theorem handleRadioRx_telemetry (hs : c.handleRadioRx env payload = .ok c') (hcode : payload.head? = some 0x8B)
    (hun : ∀ f ∈ c.inFlight, (f.awaiting.classify 0x8B).1 = false) :
    c'.out = c.out ++ [.broadcast payload] ∧ c'.inFlight = c.inFlight := by
  obtain ⟨rest, rfl⟩ : ∃ rest, payload = 0x8B :: rest := by
    cases payload with
    | nil => cases hcode
    | cons code rest =>
      cases hcode
      exact ⟨rest, rfl⟩
  obtain ⟨-, -, hs⟩ := Except.of_bind_eq_ok hs
  cases hs
  have hraw : Still (fun _ => False) c (c.recordRaw env 0x8B (0x8B :: rest)) := recordRaw_still
  have hout : (c.recordRaw env 0x8B (0x8B :: rest)).out = c.out := by
    obtain ⟨es, hout, hes⟩ := hraw.out
    cases es with
    | nil => simpa using hout
    | cons e es => exact (hes e List.mem_cons_self).elim
  have hunmatched : (c.recordRaw env 0x8B (0x8B :: rest)).routeFrame env 0x8B (0x8B :: rest) =
      (c.recordRaw env 0x8B (0x8B :: rest)).emit (.broadcast (0x8B :: rest)) := by
    rw [routeFrame_eq, hraw.slot]
    cases hslot : c.inFlight with
    | none => rfl
    | some f =>
      have hfalse := hun f hslot
      rcases hclass : f.awaiting.classify 0x8B with ⟨_ | _, _⟩
      · simp only [hclass]
        rfl
      · rw [hclass] at hfalse
        cases hfalse
  rw [hunmatched]
  exact ⟨congrArg (· ++ _) hout, hraw.slot⟩

/-- What completes the request in flight is delivered, and moves follow. -/
theorem handleRadioRx_finish (hs : c.handleRadioRx env payload = .ok c') (hslot : c.inFlight = some f)
    (hcode : payload.head? = some code) (hclass : f.awaiting.classify code = (true, true)) :
    ∃ c₂ es, Kept (Effect.Side none) c c₂ ∧
      c'.out = (c₂.deliverReply env f code payload).out ++ .ended f.request (.replied code) :: es ∧
      (∀ e ∈ es, EmittedByMove false (some f.ticket) e) ∧
      (c₂.deliverReply env f code payload).clients.Later c'.clients := by
  rcases handleRadioRx_routed hs with ⟨rfl, -⟩ | ⟨code', rest, c₁, rfl, hcache, hr⟩
  · cases hcode
  obtain rfl : code' = code := Option.some.inj hcode
  have hcached : Kept (Effect.Side none) c (c₁.recordRaw env code' (code' :: rest)) :=
    (cacheResponse_kept hcache).trans recordRaw_still.toKept
  generalize c₁.recordRaw env code' (code' :: rest) = c₂ at hr hcached
  have hslot₂ : c₂.inFlight = some f := hcached.slot.trans hslot
  cases hr with
  | finish g hg _ hm =>
    cases hslot₂.symm.trans hg
    obtain ⟨es, hout, hes⟩ : Emitted false (some f.ticket) (c₂.finish env f code' (code' :: rest)) c' :=
      hm.emitted nofun
    refine ⟨c₂, es, hcached, ?_, hes, hm.onward.later⟩
    rw [hout]
    exact List.append_assoc _ [.ended f.request (.replied code')] es
  | part g hg hpart =>
    cases hslot₂.symm.trans hg
    rw [hclass] at hpart
    cases hpart
  | other hother =>
    have hfalse := hother f hslot₂
    rw [hclass] at hfalse
    cases hfalse

/-- It is not broadcast. -/
theorem handleRadioRx_unbroadcast (hs : c.handleRadioRx env payload = .ok c') (hslot : c.inFlight = some f)
    (hcode : payload.head? = some code) (hclass : f.awaiting.classify code = (true, true)) (hout : c.out = []) :
    ∀ frame, .broadcast frame ∉ c'.out := by
  obtain ⟨c₂, es, hcached, hout', hes, -⟩ := handleRadioRx_finish hs hslot hcode hclass
  have hstill : Still (Effect.OfReply f) c₂ (c₂.deliverReply env f code payload) := deliverReply_still
  obtain ⟨es₁, hout₁, hes₁⟩ := hcached.out
  obtain ⟨es₂, hout₂, hes₂⟩ := hstill.out
  intro frame hmem
  rw [hout', hout₂, hout₁, hout, List.nil_append, List.append_assoc] at hmem
  rcases List.mem_append.mp hmem with hmem | hmem
  · cases (hes₁ _ hmem).relayed
  rcases List.mem_append.mp hmem with hmem | hmem
  · cases (hes₂ _ hmem).about
  rcases List.mem_cons.mp hmem with hmem | hmem
  · cases hmem
  cases hes _ hmem with
  | side h => cases h.relayed
  | relay _ hnone => cases hnone
  | error h =>
    obtain ⟨_, _, _, _, -, h⟩ := h
    cases h

/-- Its client gets it. -/
theorem handleRadioRx_answers (hs : c.handleRadioRx env payload = .ok c') (hslot : c.inFlight = some f)
    (hcode : payload.head? = some code) (hclass : f.awaiting.classify code = (true, true)) :
    .ended f.request (.replied code) ∈ c'.out ∧
    ∀ cid, f.clientId = some cid → cid < c.clients.nextId → cid ∈ c'.clients.channels →
      ∃ name version, .client cid name version (messageFrameFor version payload) (.reply f.ticket) ∈ c'.out := by
  obtain ⟨c₂, es, hcached, hout', -, hlater⟩ := handleRadioRx_finish hs hslot hcode hclass
  refine ⟨hout' ▸ List.mem_append_right _ List.mem_cons_self, fun cid hcid hknown hmem => ?_⟩
  have hstill : Still (Effect.OfReply f) c₂ (c₂.deliverReply env f code payload) := deliverReply_still
  have hknown₂ : cid < c₂.clients.nextId := Nat.lt_of_lt_of_le hknown hcached.clients.later.nextId
  have hmem₂ := hlater.old cid hmem (Nat.lt_of_lt_of_le hknown₂ hstill.clients.later.nextId)
  have hrequest : (⟨payload, some f.request, true⟩ : Frame).request = some f.request := rfl
  obtain ⟨es₂, hout₂, -, -, hown⟩ := deliverReply_due c₂ env rfl hrequest hcode
  obtain ⟨version, hversion⟩ := hown cid hcid hknown₂ hmem₂
  obtain ⟨name, hname⟩ := mem_repliesTo (hversion ▸ List.mem_cons_self :
    (f.ticket, version, messageFrameFor version payload) ∈ repliesTo cid es₂)
  refine ⟨name, version, ?_⟩
  rw [hout', hout₂]
  exact List.mem_append_left _ (List.mem_append_right _ hname)

/-! ### What is credited -/

theorem Emitted.credits (h : Emitted b t c c') : Credits t c c' :=
  h.imp fun _ h => ⟨h.1, fun e he => (h.2 e he).credited⟩

theorem failTo_credits {q : Queued} : Credits none c (c.failTo q) :=
  (failTo_still (q := q)).toKept.credits fun _ h => by
    obtain ⟨_, _, _, _, -, rfl⟩ := h
    exact Or.inl rfl

theorem unlinked_credits : Credits none c c.unlinked := by
  unfold unlinked
  dsimp only
  split
  · rename_i f _
    have hfail : Credits none { c with radioSendTx := false, radioUp := false, inFlight := none }
        (({ c with radioSendTx := false, radioUp := false, inFlight := none } : Core).failTo f.request) :=
      failTo_credits
    exact hfail.trans ⟨[.ended f.request .linkLost], rfl, fun e he => Or.inl (List.mem_singleton.mp he ▸ rfl)⟩
  · exact ⟨[], (List.append_nil _).symm, List.forall_mem_nil _⟩

theorem Drain.credits (hd : Drain c c') : Credits none c c' := by
  induction hd with
  | done => exact ⟨[], (List.append_nil _).symm, List.forall_mem_nil _⟩
  | @lost c c' q rest _ _ ih =>
    have hfail : Credits none (c.popped rest) ((c.popped rest).failTo q) := failTo_credits
    refine (hfail.trans ⟨[.ended q .drained], rfl, fun e he => ?_⟩).trans ih
    exact Or.inl (List.mem_singleton.mp he ▸ rfl)

/-- The loss of the link answers nothing. -/
theorem reconnectRadio_credits {attempts : List Attempt} (hs : c.reconnectRadio attempts = .ok c') :
    Credits none c c' := by
  obtain ⟨hfree, hqueue⟩ := failAll_drain.done_free (unlinked_free (c := c))
  exact (unlinked_credits.trans failAll_drain.credits).trans (reconnectLoop_emitted (b := false) hs hfree hqueue
    nofun).credits

end
end Core

namespace Radio
variable {σ : Type}

/-- Each request is answered in the shape it is awaited in, and what is pushed has a code of its own, which may be
    that of telemetry. -/
structure Answering (R : Radio σ) : Prop where
  reply : ∀ s q frame last s', R.reply s q frame last s' →
    ∃ code ∈ frame.head?, (awaitingFor q.payload).classify code = (true, last)
  push : ∀ s frame s', R.push s frame s' → ∃ code ∈ frame.head?, isPushEvent code = true

/-- A radio that answers in shape and pushes anything. -/
def answering : Radio Unit where
  take _ _ _ := True
  reply _ q frame last _ := ∃ code ∈ frame.head?, (awaitingFor q.payload).classify code = (true, last)
  push _ frame _ := ∃ code ∈ frame.head?, isPushEvent code = true
  drift _ _ := True
  relink _ _ := True

section
variable {s s' : Unit} {q : Queued} {frame : Bytes} {last : Bool}

instance : Decidable (answering.take s q s') := isTrue trivial
instance : Decidable (answering.reply s q frame last s') :=
  inferInstanceAs (Decidable (∃ code ∈ frame.head?, (awaitingFor q.payload).classify code = (true, last)))
instance : Decidable (answering.push s frame s') :=
  inferInstanceAs (Decidable (∃ code ∈ frame.head?, isPushEvent code = true))
instance : Decidable (answering.drift s s') := isTrue trivial

end

theorem answering_answers : answering.Answering := ⟨fun _ _ _ _ _ h => h, fun _ _ _ h => h⟩

end Radio

namespace World
variable {σ : Type} {R : Radio σ} {w w₀ w₁ : World σ} {q : Core.Attempt → Prop} {c : Core} {f : Frame}
  {rest : List Frame} {s : σ} {frontend : List (List FrontendOp)} {env : Env} {o : Option Frame}

/-- Telemetry that answers no request: it is that of a remote node. -/
def OfRemote (f : Frame) : Prop := f.request = none ∧ f.body.head? = some 0x8B

/-- No request times out, and no telemetry of a remote node is handled while a telemetry request about the radio
    itself is in flight. -/
def Apart (w : World σ) (_ : List (List FrontendOp)) (e : Core.Event) : Prop :=
  e.Timely w.core ∧ ∀ env frame, e = .radio env frame → ∀ f ∈ w.wire.back.head?, OfRemote f →
    ∀ g ∈ w.core.inFlight, ¬SelfTelemetry g.payload

/-- What a turn emits, about `o` if about any frame: the telemetry of a remote node is broadcast and ends no request,
    what answers a request is the frame that the radio replied to it with, and a telemetry request about the radio
    itself ends with that frame, of which its client, unless it left, gets a copy. -/
structure TellsApart (clients : Clients) (o : Option Frame) (es : List Effect) : Prop where
  remote : ∀ f ∈ o, OfRemote f → .broadcast f.body ∈ es ∧ ∀ q how, .ended q how ∉ es
  credited : ∀ e ∈ es, ∀ t ∈ e.creditedTo, ∃ f ∈ o, ∃ q ∈ f.request, t = q.ticket
  answered : ∀ f ∈ o, ∀ q ∈ f.request, SelfTelemetry q.payload → (∃ code, .ended q (.replied code) ∈ es) ∧
    ∀ cid ∈ clients.channels, q.clientId = some cid →
    ∃ name version, .client cid name version f.body (.reply q.ticket) ∈ es

/-- All that was emitted tells own telemetry from that of remote nodes. -/
def OwnTelemetry (w : World σ) : Prop := ∀ o es, (o, es) ∈ w.log → TellsApart w.core.clients o es

/-! ### One request at a time -/

theorem Run.counted {allow : World σ → List (List FrontendOp) → Core.Event → Prop} (hr : Run R allow w₀ w)
    (hstart : Started q w₀) : Core.Accounted False w.history w.core :=
  ((hr.reachable hstart).accounted False.elim fun _ _ _ h => h.elim).1

/-- The request in flight is the one that the radio still owes a last reply. -/
structure Aligned (R : Radio σ) (w : World σ) : Prop where
  owes : w.wire.Owes w.core.held
  emitted : ∀ f ∈ w.wire.back, R.Emits f

theorem Aligned.fresh (hwire : w.wire = .fresh w.core.held) : Aligned R w := by
  refine ⟨?_, ?_⟩
  · rw [hwire]
    exact .fresh
  · rw [hwire]
    exact List.forall_mem_nil _

/-- What a reply that arrives now replies to. -/
theorem Aligned.replied (hl : Aligned R w) (hback : w.wire.back = f :: rest) {q : Queued} (hq : f.request = some q) :
    w.core.held = [q] := by
  obtain ⟨qs, hqs⟩ : ∃ qs, w.core.held = q :: qs := by
    rcases hl.owes.received hback with ⟨hnone, -⟩ | ⟨q', qs, heq, hq', -⟩ | ⟨q', qs, heq, hq', -⟩
    · rw [hnone] at hq
      cases hq
    · cases hq'.symm.trans hq
      exact ⟨qs, heq⟩
    · cases hq'.symm.trans hq
      exact ⟨qs, heq⟩
  obtain ⟨g, hslot, -⟩ := mem_held (hqs ▸ List.mem_cons_self : q ∈ w.core.held)
  rw [held_eq_of_slot hslot] at hqs ⊢
  rw [(List.cons.inj hqs).1]

/-- A turn that ends no request. -/
theorem Aligned.turned (hl : Aligned R w) (hbalance : w.core.held ++ sentToRadio c.out = terminated c.out ++ c.held)
    (hended : terminated c.out = []) : Aligned R (w.turned c o) := by
  rw [hended, List.nil_append] at hbalance
  refine ⟨?_, hl.emitted⟩
  have hsend := hl.owes.send (sentToRadio c.out)
  rw [hbalance] at hsend
  exact hsend

/-- The request in flight, that a frame replies to, awaits its code. -/
theorem Aligned.classified (hanswers : R.Answering) (hl : Aligned R w)
    (hcounted : Core.Accounted False w.history w.core) (hback : w.wire.back = f :: rest) {q : Queued}
    (hq : f.request = some q) :
    ∃ g code, w.core.inFlight = some g ∧ g.request = q ∧ f.body.head? = some code ∧
      g.awaiting.classify code = (true, f.last) := by
  obtain ⟨g, hslot, rfl⟩ := mem_held (hl.replied hback hq ▸ List.mem_cons_self : q ∈ w.core.held)
  have hemitted := hl.emitted f (by simp [hback])
  rw [Radio.Emits, hq] at hemitted
  obtain ⟨s, s', hreply⟩ := hemitted
  obtain ⟨code, hcode, hclass⟩ := hanswers.reply _ _ _ _ _ hreply
  exact ⟨g, code, hslot, rfl, hcode, hcounted.awaiting g hslot ▸ hclass⟩

/-- The request in flight awaits no push. -/
theorem Aligned.unclassified (hanswers : R.Answering) (hl : Aligned R w)
    (hcounted : Core.Accounted False w.history w.core) (hback : w.wire.back = f :: rest)
    (hapart : OfRemote f → ∀ g ∈ w.core.inFlight, ¬SelfTelemetry g.payload) (hnone : f.request = none) :
    ∀ g ∈ w.core.inFlight, ∀ code ∈ f.body.head?, (g.awaiting.classify code).1 = false := by
  intro g hslot code hcode
  have hemitted := hl.emitted f (by simp [hback])
  rw [Radio.Emits, hnone] at hemitted
  obtain ⟨s, s', hpush⟩ := hemitted
  obtain ⟨code', hcode', hispush⟩ := hanswers.push _ _ _ hpush
  cases hcode'.symm.trans hcode
  refine Bool.eq_false_iff.mpr fun hmatch => ?_
  rw [hcounted.awaiting g hslot] at hmatch
  obtain ⟨hself, rfl⟩ := classify_push hispush hmatch
  exact hapart ⟨hnone, hcode⟩ g hslot hself

/-- The next frame of the radio is handled. -/
theorem Aligned.delivered (hanswers : R.Answering) (hl : Aligned R w) (hcounted : Core.Accounted False w.history w.core)
    (hbalance : w.core.held ++ sentToRadio c.out = terminated c.out ++ c.held) (hback : w.wire.back = f :: rest)
    (hapart : OfRemote f → ∀ g ∈ w.core.inFlight, ¬SelfTelemetry g.payload)
    (hs : w.core.step frontend (.radio env f.body) = .ok c) : Aligned R ((w.received rest).turned c (some f)) := by
  have hemitted : ∀ f' ∈ rest, R.Emits f' := fun f' hf => hl.emitted f' (emitted_received hback hf)
  have hsend {qs : List Queued} (h : (w.wire.receive rest).Owes qs) (heq : qs ++ sentToRadio c.out = c.held) :
      Aligned R ((w.received rest).turned c (some f)) := ⟨heq ▸ h.send (sentToRadio c.out), hemitted⟩
  have hreceived := hl.owes.received hback
  rcases Core.handleRadioRx_terminated hs with ⟨⟨es, hout, hes⟩, hunended⟩ |
    ⟨g, code, es, hslot, hcode, hends, hout, hes⟩
  · -- The frame ends no request.
    have hout : c.out = es := by simpa [Core.begin] using hout
    rw [hout, hes, List.nil_append, ← hout] at hbalance
    rcases hreceived with ⟨-, h⟩ | ⟨q, qs, heq, -, -, h⟩ | ⟨q, qs, -, hq, hlast, -⟩
    · exact hsend h hbalance
    · exact hsend h hbalance
    · obtain ⟨g, code, hslot, -, hcode, hclass⟩ := hl.classified hanswers hcounted hback hq
      rw [hlast] at hclass
      exact absurd hclass (hunended g hslot code hcode)
  · -- The frame ends the request in flight.
    have hslot : w.core.inFlight = some g := hslot
    have hout : c.out = es := by simpa [Core.begin] using hout
    rw [held_eq_of_slot hslot, hout, hes, ← hout] at hbalance
    have hsent : sentToRadio c.out = c.held := List.append_cancel_left hbalance
    rcases hreceived with ⟨hnone, -⟩ | ⟨q, qs, -, hq, hlast, -⟩ | ⟨q, qs, heq, hq, -, h⟩
    · have hfalse := hl.unclassified hanswers hcounted hback hapart hnone g hslot code hcode
      rw [hends] at hfalse
      cases hfalse
    · obtain ⟨g', code', hslot', -, hcode', hclass⟩ := hl.classified hanswers hcounted hback hq
      cases hslot.symm.trans hslot'
      cases hcode.symm.trans hcode'
      rw [hends, hlast] at hclass
      cases hclass
    · rw [held_eq_of_slot hslot] at heq
      obtain ⟨rfl, rfl⟩ := List.cons.inj heq
      exact hsend h hsent

theorem Aligned.emit (hl : Aligned R w) {wire : Wire Queued Bytes} (howes : ∀ qs, w.wire.Owes qs → wire.Owes qs)
    (hback : wire.back = w.wire.back ++ [f]) (hf : R.Emits f) : Aligned R { w with wire := wire, radio := s } := by
  refine ⟨howes _ hl.owes, fun f' hf' => ?_⟩
  rcases List.mem_append.mp (hback ▸ hf') with hf' | hf'
  · exact hl.emitted f' hf'
  · exact List.mem_singleton.mp hf' ▸ hf

theorem Aligned.step (hanswers : R.Answering) (hl : Aligned R w) (hcounted : Core.Accounted False w.history w.core)
    (hcounted₁ : Core.Accounted False w₁.history w₁.core) (hs : Step R Apart w w₁) : Aligned R w₁ := by
  cases hs with
  | @turn frontend e c hlocal hallow hs =>
    have htimely : e.Timely (w.core.begin frontend) := by
      have h := hallow.1
      cases e <;> exact h
    obtain ⟨es, hout, hes⟩ : Core.Unended (w.core.begin frontend) c :=
      (Core.handle_emitted (b := false) hs ⟨hcounted.valid.born, hcounted.valid.nodup⟩ hlocal htimely nofun).1.unended
    refine hl.turned (hcounted.balance_step ?_) (by simpa [hout, Core.begin] using hes)
    simpa using hcounted₁
  | deliver hback hallow hs =>
    refine hl.delivered hanswers hcounted (hcounted.balance_step ?_) hback (hallow.2 _ _ rfl _ (by simp [hback])) hs
    simpa using hcounted₁
  | @relink frontend attempts c s hallow hs _ =>
    obtain ⟨es, hout, hes⟩ : ∃ es, c.out = (w.core.begin frontend).out ++ es ∧ terminated es = w.core.held :=
      Core.reconnectRadio_terminated hs
    have hout : c.out = es := by simpa [Core.begin] using hout
    have hbalance : w.core.held ++ sentToRadio c.out = terminated c.out ++ c.held :=
      hcounted.balance_step (by simpa using hcounted₁)
    rw [hout, hes, ← hout] at hbalance
    exact .fresh (by rw [relinked_wire, List.append_cancel_left hbalance]; rfl)
  | take hsent hfree _ => exact ⟨hl.owes.take hsent hfree, hl.emitted⟩
  | reply hserving hradio => exact hl.emit (fun _ h => h.reply hserving _ _) rfl ⟨_, _, hradio⟩
  | push hradio => exact hl.emit (fun _ h => h.push _) rfl ⟨_, _, hradio⟩
  | drift => exact ⟨hl.owes, hl.emitted⟩

theorem Started.aligned (hstart : Started q w) : Aligned R w ∧ ∀ e ∈ w.history, Core.EmittedByMove false none e := by
  have hemitted : ∀ e ∈ w.history, Core.EmittedByMove false none e := by
    rw [hstart.history_eq]
    obtain ⟨_, _, _, _, _, -, -, hcore, -, -⟩ := hstart
    exact Core.start_emitted hcore nofun
  refine ⟨.fresh ?_, hemitted⟩
  have hbalance := ((Run.refl w : Run R (fun _ _ _ => True) w w).counted hstart).balance
  rw [terminated_eq_nil fun e he => (hemitted e he).laneEvent, List.nil_append, hstart.history_eq] at hbalance
  obtain ⟨_, _, _, _, _, -, -, -, hwire, -⟩ := hstart
  rw [hwire, hbalance]

theorem Run.aligned (hanswers : R.Answering) (hstart : Started q w₀) (hr : Run R Apart w₀ w) : Aligned R w :=
  hr.invariant hstart.aligned.1 fun _ _ hr hl hs =>
    hl.step hanswers (hr.counted hstart) ((hr.step hs).counted hstart) hs

/-! ### Own telemetry -/

theorem Step.later {allow : World σ → List (List FrontendOp) → Core.Event → Prop} (hs : Step R allow w w₁)
    (hcounted : Core.Accounted False w.history w.core) : w.core.clients.Later w₁.core.clients := by
  cases hs with
  | turn _ _ h => exact begin_later.trans (Core.step_deals h hcounted.awaiting).onward.later
  | deliver _ _ h => exact begin_later.trans (Core.step_deals h hcounted.awaiting).onward.later
  | relink _ h _ => exact begin_later.trans (Core.step_deals h hcounted.awaiting).onward.later
  | take | reply | push | drift => exact .refl

theorem OwnTelemetry.later (h : w.OwnTelemetry) (hcounted : Core.Accounted False w.history w.core) {clients : Clients}
    (hlater : w.core.clients.Later clients) {es : List Effect} (hmem : (o, es) ∈ w.log) : TellsApart clients o es := by
  obtain ⟨hremote, hcredited, hanswered⟩ := h o es hmem
  refine ⟨hremote, hcredited, fun f hf q hq hself => ⟨(hanswered f hf q hq hself).1, fun cid hcid hclient => ?_⟩⟩
  obtain ⟨⟨code, hended⟩, hgets⟩ := hanswered f hf q hq hself
  have hhanded := hcounted.handed_of_ended (List.mem_flatMap.mpr ⟨_, hmem, hended⟩)
  exact hgets cid (hlater.old cid hcid (hcounted.known q hhanded cid hclient)) hclient

theorem tellsApart_of_uncredited {clients : Clients} {es : List Effect} (h : ∀ e ∈ es, e.creditedTo = none) :
    TellsApart clients none es := by
  refine ⟨nofun, fun e he t ht => ?_, nofun⟩
  rw [h e he] at ht
  cases ht

theorem uncredited_of_credits {c₀ : Core} (h : Core.Credits none c₀ c) (hout : c₀.out = []) :
    ∀ e ∈ c.out, e.creditedTo = none := by
  obtain ⟨es, heq, hes⟩ := h
  rw [heq, hout]
  exact fun e he => (hes e (by simpa using he)).elim id id

/-- What a frame does to a world that tells apart. -/
theorem Aligned.tellsApart (hanswers : R.Answering) (hl : Aligned R w)
    (hcounted : Core.Accounted False w.history w.core) (hback : w.wire.back = f :: rest)
    (hapart : OfRemote f → ∀ g ∈ w.core.inFlight, ¬SelfTelemetry g.payload)
    (hs : w.core.step frontend (.radio env f.body) = .ok c) : TellsApart c.clients (some f) c.out := by
  refine ⟨fun f' hf' hremote => ?_, fun e he t ht => ?_, fun f' hf' q hq hself => ?_⟩
  · cases hf'
    have hun := hl.unclassified hanswers hcounted hback hapart hremote.1
    obtain ⟨hout, -⟩ := Core.handleRadioRx_telemetry hs hremote.2 fun g hslot => hun g hslot 0x8B hremote.2
    have hout : c.out = [.broadcast f.body] := hout
    rw [hout]
    exact ⟨List.mem_singleton_self _, fun _ _ hmem => nomatch List.mem_singleton.mp hmem⟩
  · rcases Core.handleRadioRx_credits hs with hcredits | ⟨g, code, hslot, hcode, hmatch, es, hout, hes⟩
    · rw [uncredited_of_credits hcredits rfl e he] at ht
      cases ht
    · have he : e ∈ es := by simpa [hout, Core.begin] using he
      have hcredited := (hes e he).resolve_left fun hnone => by
        rw [hnone] at ht
        cases ht
      rw [hcredited] at ht
      cases hq : f.request with
      | none =>
        rw [hl.unclassified hanswers hcounted hback hapart hq g hslot code hcode] at hmatch
        cases hmatch
      | some q =>
        obtain ⟨g', -, hslot', rfl, -, -⟩ := hl.classified hanswers hcounted hback hq
        cases hslot'.symm.trans hslot
        exact ⟨f, rfl, g.request, hq, (Option.some.inj ht).symm⟩
  · cases hf'
    obtain ⟨g, code, hslot, rfl, hcode, hclass⟩ := hl.classified hanswers hcounted hback hq
    have hawaiting : g.awaiting = .oneOf [0x8B] :=
      (hcounted.awaiting g hslot).trans (awaitingFor_selfTelemetry hself)
    rw [hawaiting] at hclass
    have hmatch : code = 0x01 ∨ code = 0x8B := by simpa [Awaiting.classify] using congrArg Prod.fst hclass
    have hends : g.awaiting.classify code = (true, true) := by
      rw [hawaiting]
      rcases hmatch with rfl | rfl <;> rfl
    obtain ⟨hended, hgets⟩ := Core.handleRadioRx_answers hs hslot hcode hends
    refine ⟨⟨code, hended⟩, fun cid hcid hclient => ?_⟩
    have hhanded := hcounted.handed_of_present (q := g.request) (by simp [Lane.present, Core.lane, hslot])
    obtain ⟨name, version, hmem⟩ := hgets cid hclient (hcounted.known _ hhanded cid hclient) hcid
    have hplain : messageFrameFor version f.body = f.body := messageFrameFor_other hcode (by
      rcases hmatch with rfl | rfl <;> decide)
    exact ⟨name, version, hplain ▸ hmem⟩

theorem OwnTelemetry.step (hanswers : R.Answering) (h : w.OwnTelemetry) (hl : Aligned R w)
    (hcounted : Core.Accounted False w.history w.core) (hs : Step R Apart w w₁) : w₁.OwnTelemetry := by
  have hlater := hs.later hcounted
  have hold {o : Option Frame} {es : List Effect} (hmem : (o, es) ∈ w.log) : TellsApart w₁.core.clients o es :=
    h.later hcounted hlater hmem
  cases hs with
  | @turn frontend e c hlocal hallow hs =>
    have htimely : e.Timely (w.core.begin frontend) := by
      have h := hallow.1
      cases e <;> exact h
    obtain ⟨hemitted, -⟩ :=
      Core.handle_emitted (b := false) hs ⟨hcounted.valid.born, hcounted.valid.nodup⟩ hlocal htimely nofun
    intro o es hmem
    rcases List.mem_append.mp hmem with hmem | hmem
    · exact hold hmem
    · cases List.mem_singleton.mp hmem
      exact tellsApart_of_uncredited (uncredited_of_credits hemitted.credits rfl)
  | @deliver frontend env f rest c hback hallow hs =>
    intro o es hmem
    rcases List.mem_append.mp hmem with hmem | hmem
    · exact hold hmem
    · cases List.mem_singleton.mp hmem
      exact hl.tellsApart hanswers hcounted hback (hallow.2 _ _ rfl _ (by simp [hback])) hs
  | @relink frontend attempts c s _ hs _ =>
    intro o es hmem
    rcases List.mem_append.mp hmem with hmem | hmem
    · exact hold hmem
    · cases List.mem_singleton.mp hmem
      exact tellsApart_of_uncredited (uncredited_of_credits (Core.reconnectRadio_credits hs) rfl)
  | take | reply | push | drift => exact h

/-- As long as no request times out, and no telemetry of a remote node is handled while a telemetry request about the
    radio itself is in flight, own telemetry is told from that of remote nodes. The next frame of a remote node
    is broadcast and leaves what is in flight exactly when that is no such request. -/
theorem own_telemetry (hanswers : R.Answering) (hstart : Started q w₀) (hr : Run R Apart w₀ w) :
    w.OwnTelemetry ∧ ∀ frontend env f rest c, w.wire.back = f :: rest → OfRemote f →
      w.core.step frontend (.radio env f.body) = .ok c →
      (.broadcast f.body ∈ c.out ∧ c.inFlight = w.core.inFlight ↔ ∀ g ∈ w.core.inFlight, ¬SelfTelemetry g.payload) := by
  have hcounted {w : World σ} (hr : Run R Apart w₀ w) : Core.Accounted False w.history w.core := hr.counted hstart
  refine ⟨hr.invariant ?_ fun w₁ w₂ hr h hs => h.step hanswers (hr.aligned hanswers hstart) (hcounted hr) hs, ?_⟩
  · obtain ⟨-, hemitted⟩ := hstart.aligned (R := R)
    have hlog : w₀.log = [(none, w₀.core.out)] := by
      obtain ⟨_, _, _, _, _, -, -, -, -, hlog⟩ := hstart
      exact hlog
    rw [hstart.history_eq] at hemitted
    intro o es hmem
    rw [hlog] at hmem
    cases List.mem_singleton.mp hmem
    exact tellsApart_of_uncredited fun e he => (hemitted e he).credited.elim id id
  · intro frontend env f rest c hback hremote hs
    refine ⟨fun hkept g hslot hself => ?_, fun hapart => ?_⟩
    · have hclass : g.awaiting.classify 0x8B = (true, true) := by
        rw [(hcounted hr).awaiting g hslot, awaitingFor_selfTelemetry hself]
        rfl
      exact Core.handleRadioRx_unbroadcast hs hslot hremote.2 hclass rfl _ hkept.1
    · have hun := (hr.aligned hanswers hstart).unclassified hanswers (hcounted hr) hback (fun _ => hapart) hremote.1
      obtain ⟨hout, hslot⟩ := Core.handleRadioRx_telemetry hs hremote.2 fun g hslot => hun g hslot 0x8B hremote.2
      have hout : c.out = [.broadcast f.body] := hout
      rw [hout]
      exact ⟨List.mem_singleton_self _, hslot⟩

instance (w : World σ) (frontend : List (List FrontendOp)) : (e : Core.Event) → Decidable (w.Apart frontend e)
  | .radio env frame => decidable_of_iff (∀ f ∈ w.wire.back.head?, f.request = none ∧ f.body.head? = some 0x8B →
      ∀ g ∈ w.core.inFlight, ¬(g.payload.code = 0x27 ∧ g.payload.bytes.length = 4))
      ⟨fun h => ⟨trivial, fun _ _ _ => h⟩, fun h => h.2 env frame rfl⟩
  | .timeoutTick env => decidable_of_iff (Core.Event.Timely w.core (.timeoutTick env)) ⟨fun h => ⟨h, nofun⟩, And.left⟩
  | .command .. | .maintenanceTick _ | .disconnected _ | .idle => isTrue ⟨trivial, nofun⟩

/-- Client 2 asked a remote node for its telemetry, and the radio sent the request; then client 1 asks the radio for
    its own. -/
def bothAsked : List (Act Unit) :=
  [.turn [[.connect, .connect]] (.command Core.sound ⟨2, 5000, 0x27 :: 0 :: 0 :: 0 :: List.replicate 32 7⟩),
    .take (), .reply [0x04, 0, 0, 0, 0] true (), .deliver [] Core.sound,
    .take (), .reply [0x01, 2] true (), .deliver [] Core.sound,
    .take (), .reply [0x06, 0, 1, 2, 3, 4] true (), .deliver [] Core.sound,
    .turn [] (.command Core.sound ⟨1, 5001, [0x27, 0, 0, 0]⟩), .take ()]

/-- The remote node's telemetry arrives after the radio's own. -/
def remoteLast : List (Act Unit) :=
  bothAsked ++ [.reply [0x8B, 0, 1] true (), .push [0x8B, 0, 7] (), .deliver [] Core.sound, .deliver [] Core.sound]

theorem own_telemetry_first : ∃ w : World Unit, w.OwnTelemetry ∧
    w.log.getLast? = some (some ⟨[0x8B, 0, 7], none, false⟩, [.broadcast [0x8B, 0, 7]]) := by
  obtain ⟨w₀, w, hstart, hr, hlog⟩ : ∃ w₀ w : World Unit, Started (fun _ => True) w₀ ∧ Run .answering Apart w₀ w ∧
      w.log.getLast? = some (some ⟨[0x8B, 0, 7], none, false⟩, [.broadcast [0x8B, 0, 7]]) :=
    exists_run (s := ()) (l := remoteLast) (by decide +kernel) fun _ _ => trivial
  exact ⟨w, (own_telemetry Radio.answering_answers hstart hr).1, hlog⟩

/-- It arrives before. -/
def remoteFirst : List (Act Unit) :=
  bothAsked ++ [.push [0x8B, 0, 7] (), .reply [0x8B, 0, 1] true (), .deliver [] Core.sound, .deliver [] Core.sound]

/-- Client 1 is given the remote node's telemetry, and the radio's own is broadcast. -/
theorem telemetry_mistaken : ∃ w₀ w : World Unit, Started (fun _ => True) w₀ ∧ Run .answering Undisturbed w₀ w ∧
    w.log.drop 6 =
      [(some ⟨[0x8B, 0, 7], none, false⟩, [.client 1 none 0 [0x8B, 0, 7] (.reply 3),
          .ended ⟨some 1, .mk' 0x27 [0, 0, 0], 3⟩ (.replied 0x8B), .accepted ⟨some 1, .mk' 0x27 [0, 0, 0], 3⟩]),
        (some ⟨[0x8B, 0, 1], some ⟨some 1, .mk' 0x27 [0, 0, 0], 3⟩, true⟩, [.broadcast [0x8B, 0, 1]])] ∧
    ¬w.OwnTelemetry := by
  obtain ⟨w₀, w, hstart, hr, hlog⟩ : ∃ w₀ w : World Unit, Started (fun _ => True) w₀ ∧ Run .answering Undisturbed w₀ w ∧
      w.log.drop 6 =
        [(some ⟨[0x8B, 0, 7], none, false⟩, [.client 1 none 0 [0x8B, 0, 7] (.reply 3),
            .ended ⟨some 1, .mk' 0x27 [0, 0, 0], 3⟩ (.replied 0x8B), .accepted ⟨some 1, .mk' 0x27 [0, 0, 0], 3⟩]),
          (some ⟨[0x8B, 0, 1], some ⟨some 1, .mk' 0x27 [0, 0, 0], 3⟩, true⟩, [.broadcast [0x8B, 0, 1]])] :=
    exists_run (s := ()) (l := remoteFirst) (by decide +kernel) fun _ _ => trivial
  refine ⟨w₀, w, hstart, hr, hlog, fun h => ?_⟩
  have hmem := List.mem_of_mem_drop (hlog ▸ List.mem_cons_self)
  exact ((h _ _ hmem).remote _ rfl ⟨rfl, rfl⟩).2 _ _ (List.mem_cons_of_mem _ List.mem_cons_self)

end World
end CoreSplitter
