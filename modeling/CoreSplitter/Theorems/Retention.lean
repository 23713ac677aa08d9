import CoreSplitter.Theorems.Listing
import CoreSplitter.Theorems.Sessions

/-! What maintenance deletes, and when: the times at which requests were sent, contacts were heard and clients were
    seen, by the wall clock. -/

namespace CoreSplitter
open Bytes

namespace Core

/-! ### The wall clock -/

/-- The wall clock in an attempt to connect. -/
def Attempt.clock (a : Attempt) : List Int := [a.env.unix, a.queryEnv.unix, a.syncEnv.unix]

/-- The wall clock in a turn. -/
def Event.clock : Event → List Int
  | .command env _ | .radio env _ | .timeoutTick env | .maintenanceTick env => [env.unix]
  | .disconnected attempts => attempts.flatMap Attempt.clock
  | .idle => []

def Deed.clock : Deed → List Int
  | .boot env first attempts _ => first.clock ++ attempts.flatMap Attempt.clock ++ [env.unix]
  | .turn s => s.event.clock

/-- The wall clock never goes backwards, and its times fit their type. -/
structure Steady (l : List Deed) : Prop where
  ordered : (l.flatMap Deed.clock).Pairwise (· ≤ ·)
  bounded : ∀ t ∈ l.flatMap Deed.clock, -2 ^ 63 ≤ t ∧ t < 2 ^ 63

/-! ### When a request was sent -/

/-- What is in flight was so before, and nothing was sent; or it was sent now. No request is replied to. -/
def Slots (time : Int) (c c₁ : Core) : Prop :=
  ∃ es, c₁.out = c.out ++ es ∧ (∀ q code, .ended q (.replied code) ∉ es) ∧
    ((∀ q, .radio q ∉ es) ∧ c₁.inFlight = c.inFlight ∨ ∀ f, c₁.inFlight = some f →
      .radio f.request ∈ es ∧ f.sentUnix = time)

section
variable {time : Int} {orderly : Prop} {c c₀ c₁ c₂ : Core} {env : Env} {t : Option Ticket} {p : Effect → Prop}
  {f : InFlight} {frontend : List (List FrontendOp)} {e : Event} {q : Queued}

theorem Slots.of_eq (hslot : c₁.inFlight = c.inFlight) (hout : c₁.out = c.out) : Slots time c c₁ :=
  ⟨[], by simp [hout], by simp, Or.inl ⟨by simp, hslot⟩⟩

theorem Slots.refl : Slots time c c := .of_eq rfl rfl

theorem Slots.trans (h₁ : Slots time c c₁) (h₂ : Slots time c₁ c₂) : Slots time c c₂ := by
  obtain ⟨es₁, hout₁, hended₁, hslot₁⟩ := h₁
  obtain ⟨es₂, hout₂, hended₂, hslot₂⟩ := h₂
  refine ⟨es₁ ++ es₂, by rw [hout₂, hout₁, List.append_assoc], fun q code h => ?_, ?_⟩
  · exact (List.mem_append.mp h).elim (hended₁ q code) (hended₂ q code)
  · rcases hslot₂ with ⟨hsent₂, hslot₂⟩ | hnew
    · rcases hslot₁ with ⟨hsent₁, hslot₁⟩ | hnew
      · exact Or.inl ⟨fun q h => (List.mem_append.mp h).elim (hsent₁ q) (hsent₂ q), hslot₂.trans hslot₁⟩
      · exact Or.inr fun f hf => (hnew f (hslot₂ ▸ hf)).imp_left (List.mem_append_left _)
    · exact Or.inr fun f hf => (hnew f hf).imp_left (List.mem_append_right _)

theorem Kept.slots (h : Kept p c c₁) (hp : ∀ e, p e → e.laneEvent = none) : Slots time c c₁ := by
  obtain ⟨es, hout, hes⟩ := h.out
  refine ⟨es, hout, fun q code hq => ?_, Or.inl ⟨fun q hq => ?_, h.slot⟩⟩
  · cases hp _ (hes _ hq)
  · cases hp _ (hes _ hq)

theorem failTo_slots : Slots time c (c.failTo q) :=
  failTo_still.toKept.slots fun _ ⟨_, _, _, _, _, h⟩ => by rw [h]; rfl

theorem emit_slots {e : Effect} (hended : ∀ q code, e ≠ .ended q (.replied code)) (hsent : ∀ q, e ≠ .radio q) :
    Slots time c (c.emit e) :=
  ⟨[e], rfl, fun q code h => hended q code (List.mem_singleton.mp h).symm,
      Or.inl ⟨fun q h => hsent q (List.mem_singleton.mp h).symm, rfl⟩⟩

theorem startWith_slots : Slots env.unix c (c.startWith env q) := by
  obtain ⟨db, self, device, battery, hform, -⟩ := startWith_form c env q
  rw [hform]
  refine ⟨[.radio q], rfl, by simp, Or.inr fun f hf => ?_⟩
  obtain rfl := Option.some.inj hf
  exact ⟨List.mem_singleton.mpr rfl, rfl⟩

theorem Move.slots (h : Move orderly env t c c₁) : Slots env.unix c c₁ := by
  have hpop (rest : List Queued) : Slots env.unix c (c.popped rest) := .of_eq rfl rfl
  cases h with
  | still h => exact h.toKept.slots fun _ h => h.lane
  | relay h => exact h.toKept.slots fun _ h => h.lane
  | submit clientId payload =>
    exact (emit_slots (c := c) (e := .handed ⟨clientId, payload, c.nextTicket⟩) nofun nofun).trans (.of_eq rfl rfl)
  | jump clientId payload =>
    exact (emit_slots (c := c) (e := .handed ⟨clientId, payload, c.nextTicket⟩) nofun nofun).trans (.of_eq rfl rfl)
  | start => exact (hpop _).trans startWith_slots
  | refuse => exact ((hpop _).trans failTo_slots).trans (emit_slots nofun nofun)
  | drop => exact (hpop _).trans (emit_slots nofun nofun)

theorem Moves.slots (h : Moves orderly env t c c₁) : Slots env.unix c c₁ := by
  induction h with
  | refl => exact .refl
  | tail _ hm ih => exact ih.trans hm.slots

/-- From a free slot, what is in flight was sent now. -/
theorem Slots.fresh (h : Slots time c c₁) (hfree : c.inFlight = none) (hf : c₁.inFlight = some f) :
    .radio f.request ∈ c₁.out ∧ f.sentUnix = time := by
  obtain ⟨es, hout, -, ⟨-, hslot⟩ | hnew⟩ := h
  · rw [hslot, hfree] at hf
    cases hf
  · obtain ⟨hsent, htime⟩ := hnew f hf
    exact ⟨hout ▸ List.mem_append_right _ hsent, htime⟩

theorem Attempted.fresh {a : Attempt} {ok : Bool} (h : Attempted c a ok c₁) (hfree : c.inFlight = none)
    (hqueue : c.pendingQueue = []) (hf : c₁.inFlight = some f) :
    .radio f.request ∈ c₁.out ∧ f.sentUnix = a.syncEnv.unix := by
  cases h with
  | unconnected => cases hf.symm.trans hfree
  | uninitialized h => cases hf.symm.trans (h.slot.trans hfree)
  | @synced c₂ h =>
    have hfree₂ : c₂.inFlight = none := h.slot.trans hfree
    have hsync : Moves True a.syncEnv none c₂ (c₂.syncFromRadio a.syncEnv) :=
      syncFromRadio_moves hfree₂ (h.queue.trans hqueue)
    exact hsync.slots.fresh hfree₂ hf

theorem reconnectLoop_sent {attempts : List Attempt} (h : c.reconnectLoop attempts = .ok c₁) (hfree : c.inFlight = none)
    (hqueue : c.pendingQueue = []) (hf : c₁.inFlight = some f) :
    .radio f.request ∈ c₁.out ∧ f.sentUnix ∈ attempts.flatMap Attempt.clock := by
  induction attempts generalizing c with
  | nil =>
    cases h
    rw [hfree] at hf
    cases hf
  | cons a rest ih =>
    obtain ⟨⟨ok, c₂⟩, hattempt, h⟩ := Except.of_bind_eq_ok h
    have hattempted := attemptRadio_attempted hattempt
    cases ok with
    | true =>
      cases h
      obtain ⟨hsent, htime⟩ := hattempted.fresh hfree hqueue hf
      exact ⟨hsent, by simp [htime, Attempt.clock]⟩
    | false =>
      obtain ⟨hfree₂, hqueue₂⟩ := hattempted.free_of_failed hfree hqueue
      exact (ih h hfree₂ hqueue₂).imp_right fun htime => List.mem_append_right _ htime

theorem reconnectRadio_sent {attempts : List Attempt} (h : c.reconnectRadio attempts = .ok c₁)
    (hf : c₁.inFlight = some f) :
    .radio f.request ∈ c₁.out ∧ f.sentUnix ∈ attempts.flatMap Attempt.clock := by
  obtain ⟨hfree, hqueue⟩ := failAll_drain.done_free (unlinked_free (c := c))
  exact reconnectLoop_sent h hfree hqueue hf

theorem start_sent {config : Config} {db : NodeState} {first : Attempt} {attempts : List Attempt}
    (h : (Core.new config db).start env first attempts = .ok c) (hf : c.inFlight = some f) :
    .radio f.request ∈ c.out ∧ f.sentUnix ∈ first.clock ++ attempts.flatMap Attempt.clock ++ [env.unix] := by
  obtain ⟨⟨ok, c₁⟩, hfirst, h⟩ := Except.of_bind_eq_ok h
  have hattempted := attemptRadio_attempted hfirst
  have hrestored {c' : Core} (h : c'.restoreBlobs env = .ok c)
      (hsent : c'.inFlight = some f → .radio f.request ∈ c'.out ∧
      f.sentUnix ∈ first.clock ++ attempts.flatMap Attempt.clock ++ [env.unix]) :
      .radio f.request ∈ c.out ∧ f.sentUnix ∈ first.clock ++ attempts.flatMap Attempt.clock ++ [env.unix] := by
    have hstill := restoreBlobs_still (t := none) h
    obtain ⟨es, hout, -⟩ := hstill.out
    exact (hsent (hstill.slot ▸ hf)).imp_left fun hsent => hout ▸ List.mem_append_left _ hsent
  cases ok with
  | true =>
    refine hrestored h fun hf => ?_
    obtain ⟨hsent, htime⟩ := hattempted.fresh rfl rfl hf
    exact ⟨hsent, by simp [htime, Attempt.clock]⟩
  | false =>
    obtain ⟨c₂, hreconnect, h⟩ := Except.of_bind_eq_ok h
    exact hrestored h fun hf => (reconnectRadio_sent hreconnect hf).imp_right fun htime =>
      List.mem_append_left _ (List.mem_append_right _ htime)

/-- What is in flight was so before, and nothing was sent or replied to; or it was sent at one of the times. -/
def Slotted (times : List Int) (c c₁ : Core) : Prop := ∀ f, c₁.inFlight = some f →
  (∃ f₀, c.inFlight = some f₀ ∧ f₀.request = f.request ∧ f₀.sentUnix = f.sentUnix ∧ ∀ q, .radio q ∉ c₁.out ∧
    ∀ code, .ended q (.replied code) ∉ c₁.out) ∨
  .radio f.request ∈ c₁.out ∧ f.sentUnix ∈ times

theorem Slots.slotted (h : Slots time c c₁) (hout : c.out = []) : Slotted [time] c c₁ := by
  obtain ⟨es, hout', hended, hslot⟩ := h
  rw [hout, List.nil_append] at hout'
  subst hout'
  intro f hf
  rcases hslot with ⟨hsent, hslot⟩ | hnew
  · exact Or.inl ⟨f, hslot ▸ hf, rfl, rfl, fun q => ⟨hsent q, hended q⟩⟩
  · exact Or.inr ((hnew f hf).imp_right List.mem_singleton.mpr)

theorem handleRadioRx_slotted {frame : Bytes} (h : c.handleRadioRx env frame = .ok c₁) (hout : c.out = []) :
    Slotted [env.unix] c c₁ := by
  rcases handleRadioRx_routed h with ⟨rfl, rfl⟩ | ⟨code, rest, c', rfl, hcache, hr⟩
  · exact Slots.refl.slotted hout
  · have hcached : Kept (Effect.Side none) c (c'.recordRaw env code (code :: rest)) :=
      (cacheResponse_kept hcache).trans recordRaw_still.toKept
    have hslots : Slots env.unix c (c'.recordRaw env code (code :: rest)) := hcached.slots fun _ h => h.lane
    cases hr with
    | finish f _ _ h =>
      intro f' hf'
      exact Or.inr ((h.slots.fresh rfl hf').imp_right List.mem_singleton.mpr)
    | part f hslot _ h =>
      subst h
      intro f' hf'
      obtain rfl := Option.some.inj hf'
      have hreply : Still (Effect.OfReply f) (c'.recordRaw env code (code :: rest))
          ((c'.recordRaw env code (code :: rest)).deliverReply env f code (code :: rest)) := deliverReply_still
      obtain ⟨es₁, hout₁, hes₁⟩ := hcached.out
      obtain ⟨es₂, hout₂, hes₂⟩ := hreply.out
      have hlane (e : Effect)
          (he : e ∈ ((c'.recordRaw env code (code :: rest)).replyPart env f code (code :: rest)).out) :
          e.laneEvent = none := by
        rw [replyPart, hout₂, hout₁, hout, List.nil_append] at he
        exact (List.mem_append.mp he).elim (fun he => (hes₁ e he).lane) fun he => (hes₂ e he).lane
      refine Or.inl ⟨f, hcached.slot ▸ hslot, rfl, rfl, fun q => ⟨fun hq => ?_, fun code hq => ?_⟩⟩
      · cases hlane _ hq
      · cases hlane _ hq
    | other _ h => exact (hslots.trans h.slots).slotted hout

/-- What is in flight after a turn was so before, and the turn sent nothing and had no reply; or the turn sent it. -/
theorem step_slotted (hvalid : c.clients.Valid) (hs : c.step frontend e = .ok c₁) : Slotted e.clock c c₁ := by
  cases e with
  | command env cmd => exact (handleClientCommand_works hs ⟨hvalid.born, hvalid.nodup⟩).moves.slots.slotted rfl
  | radio env frame => exact handleRadioRx_slotted (c := c.begin frontend) hs rfl
  | timeoutTick env =>
    cases hs
    rcases checkInFlightTimeout_cases (c.begin frontend) env with h | ⟨f, -, -, h, -⟩
    · rw [h]
      exact (Slots.refl (c := c.begin frontend)).slotted rfl
    · intro f' hf'
      exact Or.inr ((h.slots.fresh failTo_still.slot hf').imp_right List.mem_singleton.mpr)
  | maintenanceTick env =>
    cases hs
    have hworks : Works env (c.begin frontend) ((c.begin frontend).resync env) := resync_works
    exact (hworks.moves.slots.trans (.of_eq rfl rfl)).slotted rfl
  | disconnected attempts => exact fun f hf => Or.inr (reconnectRadio_sent hs hf)
  | idle =>
    cases hs
    exact fun f hf => Or.inl ⟨f, hf, rfl, rfl, fun _ => ⟨List.not_mem_nil, fun _ => List.not_mem_nil⟩⟩

/-! ### The last sync -/

/-- The turn completes an unfiltered GET_CONTACTS, with END_OF_CONTACTS. -/
def Lap.Completes (s : Lap) (q : Queued) : Prop := q.payload.bytes = [0x04] ∧ .ended q (.replied 0x04) ∈ s.after.out

theorem Command.bytes_eq_singleton {p : Command} {code : UInt8} (hcode : p.code = code) (hlen : p.bytes.length = 1) :
    p.bytes = [code] := by
  obtain ⟨b, hb⟩ := List.length_eq_one_iff.mp hlen
  rw [hb, ← hcode]
  simp [Command.code, hb]

/-- The sync time is set by what completes an unfiltered GET_CONTACTS, to when that was sent. -/
theorem step_synced {h : List Effect} (ha : Accounted False h c) (hs : c.step frontend e = .ok c₁) :
    c₁.db.contactsSyncedAt = c.db.contactsSyncedAt ∨ ∃ f,
    c.inFlight = some f ∧ Lap.Completes ⟨c, frontend, e, c₁⟩ f.request ∧
      c₁.db.contactsSyncedAt = (c₁.db.setContactsSyncedAt f.sentUnix).contactsSyncedAt := by
  refine (handle_writes hs).keeps (P := fun c₂ => c₂.db.contactsSyncedAt = c.db.contactsSyncedAt ∨ ∃ f,
    c.inFlight = some f ∧
    Lap.Completes ⟨c, frontend, e, c₁⟩ f.request ∧ c₂.db.contactsSyncedAt =
    (c₁.db.setContactsSyncedAt f.sentUnix).contactsSyncedAt) (Or.inl rfl) fun c₂ c₃ hw hold => ?_
  have hset (db : NodeState) (f : InFlight) : (db.setContactsSyncedAt f.sentUnix).contactsSyncedAt =
      (c₁.db.setContactsSyncedAt f.sentUnix).contactsSyncedAt := by
    simp only [NodeState.contactsSyncedAt, NodeState.setContactsSyncedAt, NodeState.kvGet, NodeState.kvSet,
      Table.lookup_insert_eq, if_true]
  rcases hw.calls with hcalls | ⟨-, env, -, rfl⟩
  · clear hw
    generalize c₂.db = db₂ at hcalls hold
    generalize c₃.db = db₃ at hcalls ⊢
    induction hcalls with
    | refl => exact hold
    | tail _ hcall ih =>
      rcases hcall.contactsSyncedAt with hsame | ⟨f, haccepts, hsync, hnew⟩
      · rw [hsame]
        exact ih
      · obtain ⟨env, frame, code, rfl, hslot, hcode, hends, hne⟩ := radio_of_accepts haccepts
        have hstream : f.awaiting = .stream [0x02, 0x03] 0x04 := by
          have hcmd : f.payload.code = 0x04 := hsync.1
          simp only [ha.awaiting f hslot, awaitingFor, hcmd]
        obtain rfl : code = 0x04 := by
          rw [hstream] at hends
          have hend : ((Awaiting.stream [0x02, 0x03] 0x04).classify code).2 = true := by rw [hends]
          simpa [Awaiting.classify, hne] using hend
        exact Or.inr ⟨f, hslot, ⟨Command.bytes_eq_singleton hsync.1 hsync.2, completed_ended hs hslot hcode hends⟩,
          hnew.trans (hset _ f)⟩
  · rw [contactsSyncedAt_of_kv (maintain_purged c₂ env).kv]
    exact hold

/-- What is in flight was sent, and since then nothing was sent and no request was replied to. -/
theorem Service.in_flight {l : List Deed} (h : Service l c) (hf : c.inFlight = some f) :
    Since (fun d => .radio f.request ∈ d.out ∧ f.sentUnix ∈ d.clock)
      (fun d => ∀ q, .radio q ∉ d.out ∧ ∀ code, .ended q (.replied code) ∉ d.out) l := by
  induction h generalizing f with
  | install hstart =>
    rw [← List.nil_append [_], since_concat]
    exact Or.inl (start_sent hstart hf)
  | restart _ hstart =>
    rw [since_concat]
    exact Or.inl (start_sent hstart hf)
  | turn hservice hs ih =>
    rw [since_concat]
    rcases step_slotted hservice.valid hs f hf with ⟨f₀, hf₀, hrequest, htime, hquiet⟩ | hsent
    · have hbefore := ih hf₀
      rw [hrequest, htime] at hbefore
      exact Or.inr ⟨hbefore, hquiet⟩
    · exact Or.inl hsent

/-- What completes a request finds it in flight, sent since which nothing was sent and no request was replied to. -/
theorem Service.completed {l r : List Deed} {s : Lap} (h : Service (l ++ .turn s :: r) c) (hcompletes : s.Completes q) :
    ∃ f, s.before.inFlight = some f ∧ f.request = q ∧ Since (fun d => .radio q ∈ d.out ∧ f.sentUnix ∈ d.clock)
      (fun d => ∀ q, .radio q ∉ d.out ∧ ∀ code, .ended q (.replied code) ∉ d.out) l := by
  obtain ⟨hservice, hs⟩ := h.split
  obtain ⟨_, hreach⟩ := hservice.reachable
  obtain ⟨_, _, f, _, _, hf, rfl⟩ := ended_replied hreach.told hs hcompletes.2
  exact ⟨f, hf, rfl, hservice.in_flight hf⟩

theorem Steady.le {l l' : List Deed} (h : Steady (l ++ l')) {t t' : Int} (ht : t ∈ l.flatMap Deed.clock)
    (ht' : t' ∈ l'.flatMap Deed.clock) : t ≤ t' := by
  have hordered := h.ordered
  rw [List.flatMap_append, List.pairwise_append] at hordered
  exact hordered.2.2 t ht t' ht'

theorem Steady.left {l l' : List Deed} (h : Steady (l ++ l')) : Steady l := by
  have hordered := h.ordered
  rw [List.flatMap_append, List.pairwise_append] at hordered
  exact ⟨hordered.1, fun t ht => h.bounded t (List.flatMap_append ▸ List.mem_append_left _ ht)⟩

/-- A sync time is when a GET_CONTACTS was sent that was completed. -/
theorem Service.synced {l : List Deed} (h : Service l c) (hsteady : Steady l) {time : Int}
    (hsynced : c.db.contactsSyncedAt = some time) :
    ∃ m s r f, l = m ++ .turn s :: r ∧ s.before.inFlight = some f ∧ s.Completes f.request ∧ f.sentUnix = time := by
  induction h with
  | install hstart =>
    rw [(start_writes hstart).synced fun _ => id] at hsynced
    cases hsynced
  | restart hservice hstart ih =>
    rw [(start_writes hstart).synced fun _ => id] at hsynced
    obtain ⟨m, s, r, f, rfl, h⟩ := ih hsteady.left hsynced
    exact ⟨m, s, _, f, List.append_assoc m (.turn s :: r) [_], h⟩
  | @turn l c c₁ frontend e hservice hs ih =>
    obtain ⟨_, ha⟩ := hservice.accounted
    rcases step_synced ha hs with hsame | ⟨f, hslot, hcompletes, hset⟩
    · obtain ⟨m, s, r, f, rfl, h⟩ := ih hsteady.left (hsame ▸ hsynced)
      exact ⟨m, s, _, f, List.append_assoc m (.turn s :: r) [_], h⟩
    · obtain ⟨l₁, d, l₂, rfl, ⟨-, htime⟩, -⟩ := hservice.in_flight hslot
      obtain ⟨hmin, hmax⟩ := hsteady.left.bounded f.sentUnix (List.mem_flatMap.mpr ⟨d, by simp, htime⟩)
      rw [hset, NodeState.contactsSyncedAt_set hmin hmax] at hsynced
      exact ⟨_, _, [], f, rfl, hslot, hcompletes, Option.some.inj hsynced⟩

/-- The last unfiltered GET_CONTACTS that was completed was in flight during these deeds. -/
def LastSync (l n : List Deed) : Prop :=
  ∃ m d s r q, l = m ++ d :: (n ++ .turn s :: r) ∧ .radio q ∈ d.out ∧ (∀ x ∈ n, .radio q ∉ x.out) ∧ s.Completes q ∧
    ∀ u q', .turn u ∈ r → ¬u.Completes q'

theorem Service.lastSync {l : List Deed} (h : Service l c) {s : Lap} (hs : .turn s ∈ l) (hcompletes : s.Completes q) :
    ∃ n, LastSync l n := by
  obtain ⟨k, d, r, rfl, hd, hr⟩ := since_of_mem (p := Deed.Turns fun s => ∃ q, s.Completes q) ⟨_, hs, q, hcompletes⟩
  cases d with
  | boot => exact hd.elim
  | turn s' =>
    obtain ⟨q', hcompletes'⟩ := hd
    obtain ⟨f, -, -, m, d, n, rfl, ⟨hsent, -⟩, hquiet⟩ := h.completed hcompletes'
    exact ⟨n, m, d, s', r, q', by simp, hsent, fun x hx => (hquiet x hx q').1, hcompletes',
      fun u q'' hu h => hr _ hu ⟨q'', h⟩⟩

/-- A sync time is no later than what was done while the last GET_CONTACTS that was completed was in flight. -/
theorem LastSync.after {l n : List Deed} (hlast : LastSync l n) (h : Service l c) (hsteady : Steady l) {time t : Int}
    (hsynced : c.db.contactsSyncedAt = some time) (ht : t ∈ n.flatMap Deed.clock) : time ≤ t := by
  obtain ⟨m, d, s, r, q, rfl, hsent, hunsent, hcompletes, hr⟩ := hlast
  obtain ⟨m₂, s₂, r₂, f₂, heq, hslot₂, hcompletes₂, rfl⟩ := h.synced hsteady hsynced
  have h₂ := h
  rw [heq] at h₂
  rw [← List.cons_append, ← List.append_assoc] at h heq hsteady
  obtain ⟨f, hslot, hrequest, m', d', n', hsplit, ⟨hsent', htime⟩, hquiet⟩ := h.completed hcompletes
  obtain ⟨rfl, rfl, rfl⟩ := last_unique (p := fun d => .radio q ∈ d.out) hsplit hsent hsent' hunsent fun x hx =>
    (hquiet x hx q).1
  have hbefore (htime : f₂.sentUnix ∈ (m ++ [d]).flatMap Deed.clock) : f₂.sentUnix ≤ t := by
    have hsplit : m ++ d :: n ++ .turn s :: r = (m ++ [d]) ++ (n ++ .turn s :: r) := by simp
    rw [hsplit] at hsteady
    exact hsteady.le htime (by simpa using Or.inl (List.mem_flatMap.mp ht))
  rcases append_cons_cases heq with ⟨k, -, rfl⟩ | ⟨rfl, hsame, -⟩ | ⟨k, hk, -⟩
  · exact absurd hcompletes₂ (hr s₂ _ (by simp))
  · cases hsame
    obtain rfl := Option.some.inj (hslot.symm.trans hslot₂)
    exact hbefore (List.mem_flatMap.mpr ⟨d, by simp, htime⟩)
  · have hsent₂ : f₂.sentUnix ∈ m₂.flatMap Deed.clock := by
      obtain ⟨l₁, d₁, l₂, rfl, ⟨-, htime₁⟩, -⟩ := h₂.split.1.in_flight hslot₂
      exact List.mem_flatMap.mpr ⟨d₁, by simp, htime₁⟩
    rcases append_cons_cases hk with ⟨k', -, rfl⟩ | ⟨rfl, -, -⟩ | ⟨k', rfl, -⟩
    · exact absurd hcompletes₂.2 ((hquiet (.turn s₂) (by simp) f₂.request).2 _)
    · exact hbefore (by simpa using Or.inl (List.mem_flatMap.mp hsent₂))
    · exact hbefore (by simpa using Or.inl (List.mem_flatMap.mp hsent₂))

/-! ### Contacts -/

/-- A cached contact was last seen when the last frame of it was handled. -/
theorem Service.seen {l : List Deed} (h : Service l c) (hsteady : Steady l) {key frame payload : Bytes}
    {row : ContactRow} {u : Lap} (hrow : c.db.contacts.lookup key = some row) (hu : .turn u ∈ l)
    (he : u.event = .radio env payload) (hcontact : u.event.contact = some frame) (hkey : contactKey frame = key)
    (hok : u.event.ok .upsertContact = true) : ∃ t, row.seenAt = some t ∧ env.unix ≤ t := by
  have hhears : u.Hears key := hkey ▸ Lap.hears_of_contact hcontact hok
  obtain ⟨l₁, d, l₂, rfl, hd, hl₂⟩ := h.contact_iff.mp hrow
  cases d with
  | boot => exact hd.elim
  | turn a =>
    obtain ⟨env', payload', _, he', -, -, -, hseen⟩ := hd.1.holds
    refine ⟨env'.unix, hseen, ?_⟩
    have hclock (v : Lap) {env : Env} {payload : Bytes} (he : v.event = .radio env payload) :
        env.unix ∈ (Deed.turn v).clock := by
      simp [Deed.clock, he, Event.clock]
    rcases List.mem_append.mp hu with hu | hu
    · exact hsteady.le (List.mem_flatMap.mpr ⟨_, hu, hclock u he⟩)
        (List.mem_flatMap.mpr ⟨_, List.mem_cons_self, hclock a he'⟩)
    · rcases List.mem_cons.mp hu with heq | hu
      · cases heq
        rw [he] at he'
        cases he'
        exact Int.le_refl _
      · exact absurd (Or.inl hhears) (hl₂ _ hu)

/-- The maintenance of the turn deletes the contact. -/
def Lap.Purges (s : Lap) (key : Bytes) : Prop :=
  ∃ env, s.event = .maintenanceTick env ∧ ((s.before.begin s.frontend).resync env).db.contacts.lookup key ≠ none ∧
    s.after.db.contacts.lookup key = none

theorem Lap.Purges.sweeps {s : Lap} {key : Bytes} (h : s.Purges key)
    (hs : s.before.step s.frontend s.event = .ok s.after) : s.Sweeps key := by
  obtain ⟨env, he, hrow, hgone⟩ := h
  obtain ⟨row, hrow⟩ := Option.ne_none_iff_exists'.mp hrow
  rw [he] at hs
  have hafter : s.after = ((s.before.begin s.frontend).resync env).maintain env := (Except.ok.inj hs).symm
  have hcut : ((s.before.begin s.frontend).resync env).contactsCut env = s.before.contactsCut env := by
    simp only [contactsCut, resync_synced, resync_config]
    rfl
  have hswept : ∃ threshold, s.before.contactsCut env = some threshold ∧ row.seenAt.getD 0 < threshold := by
    rw [hafter, maintain_contacts, contactSweep, hcut] at hgone
    cases hthreshold : s.before.contactsCut env with
    | none =>
      rw [hthreshold] at hgone
      cases hrow.symm.trans hgone
    | some threshold =>
      refine ⟨threshold, rfl, ?_⟩
      by_contra hkept
      rw [hthreshold, Change.lookup_replay_eq_some_iff.mpr
        (Or.inl ⟨hrow, by simpa [Change.Puts, Change.Drops] using hkept⟩)] at hgone
      cases hgone
  obtain ⟨threshold, hthreshold, hseen⟩ := hswept
  refine ⟨env, threshold, row, he, hthreshold, ?_, hseen⟩
  have hworks : Works env (s.before.begin s.frontend) ((s.before.begin s.frontend).resync env) := resync_works
  obtain ⟨sent, hsent⟩ := hworks.moves.takes
  rw [hsent.contacts, Change.lookup_replay_eq_some_iff] at hrow
  rcases hrow with ⟨hrow, -⟩ | ⟨j₁, j₂, hput, -⟩
  · exact hrow
  · have hmem : Change.put key row ∈ sent.flatMap fun q => q.payload.contactTake env.dbOk := by simp [hput]
    obtain ⟨q, -, hmem⟩ := List.mem_flatMap.mp hmem
    unfold Command.contactTake at hmem
    split at hmem
    · obtain ⟨_, -, hmem⟩ := List.mem_map.mp hmem
      cases hmem
    · cases hmem

/-- Maintenance deletes a contact only if the radio did not tell of it lately, and not in the last full sync. -/
theorem purged_contact_missing {l l' : List Deed} {s : Lap} {key : Bytes} (h : Service (l ++ .turn s :: l') c)
    (hsteady : Steady l) (hok : ∀ u, .turn u ∈ l → u.event.ok .upsertContact = true)
    (he : s.event = .maintenanceTick env) (hpurges : s.Purges key) :
    (∀ u env' payload frame, .turn u ∈ l → u.event = .radio env' payload → u.event.contact = some frame →
      contactKey frame = key → env'.unix < NodeState.cutoff env.unix s.before.config.retention.contactsDays) ∧
    (∃ n, LastSync l n) ∧
    ∀ n u frame, LastSync l n → .turn u ∈ n → u.event.contact = some frame → contactKey frame ≠ key := by
  obtain ⟨hservice, hs⟩ := h.split
  obtain ⟨env', threshold, row, he', hcut, hrow, hseen⟩ := hpurges.sweeps hs
  cases he.symm.trans he'
  obtain ⟨time, hsynced, rfl⟩ : ∃ time, s.before.db.contactsSyncedAt = some time ∧
      NodeState.contactThreshold env.unix s.before.config.retention.contactsDays time = threshold := by
    unfold contactsCut at hcut
    dsimp only at hcut
    split at hcut
    · exact Option.map_eq_some_iff.mp hcut
    · cases hcut
  have hold {u : Lap} {env' : Env} {payload frame : Bytes} (hu : .turn u ∈ l) (he' : u.event = .radio env' payload)
      (hcontact : u.event.contact = some frame) (hkey : contactKey frame = key) :
      env'.unix < NodeState.contactThreshold env.unix s.before.config.retention.contactsDays time := by
    obtain ⟨t, ht, hle⟩ := hservice.seen hsteady hrow hu he' hcontact hkey (hok u hu)
    rw [ht, Option.getD_some] at hseen
    exact lt_of_le_of_lt hle hseen
  refine ⟨fun u env' payload frame hu he' hcontact hkey => ?_, ?_, fun n u frame hlast hu hcontact hkey => ?_⟩
  · exact lt_of_lt_of_le (hold hu he' hcontact hkey) (min_le_right _ _)
  · obtain ⟨m, s', r, f, rfl, -, hcompletes, -⟩ := hservice.synced hsteady hsynced
    exact hservice.lastSync (by simp) hcompletes
  · obtain ⟨env', payload, he'⟩ : ∃ env' payload, u.event = .radio env' payload := by
      cases hevent : u.event with
      | radio env' payload => exact ⟨env', payload, rfl⟩
      | command | timeoutTick | maintenanceTick | disconnected | idle =>
        rw [hevent] at hcontact
        cases hcontact
    have hlate : time ≤ env'.unix :=
      hlast.after hservice hsteady hsynced (List.mem_flatMap.mpr ⟨_, hu, by simp [Deed.clock, he', Event.clock]⟩)
    have hul : .turn u ∈ l := by
      obtain ⟨m, d, s', r, q, rfl, -⟩ := hlast
      simp [hu]
    have hearly := hold hul he' hcontact hkey
    exact absurd (lt_of_lt_of_le hearly (min_le_left _ _)) (not_lt.mpr hlate)

theorem laps_turns {ts : List Turn} {l : List Lap} (h : c.laps ts = .ok (l, c₁)) :
    l.map (fun s => (s.frontend, s.event)) = ts := by
  induction ts generalizing c l with
  | nil =>
    cases h
    rfl
  | cons t ts ih =>
    obtain ⟨c₂, hs, h⟩ := Except.of_bind_eq_ok h
    obtain ⟨⟨l', c₃⟩, hl, h⟩ := Except.of_bind_eq_ok h
    cases h
    rw [List.map_cons, ih hl]

/-- The clock over the turns that were made. -/
theorem clock_laps {ts : List Turn} {l : List Lap} (h : c.laps ts = .ok (l, c₁)) :
    (l.map Deed.turn).flatMap Deed.clock = ts.flatMap fun t => t.2.clock := by
  rw [← laps_turns h, List.flatMap_map, List.flatMap_map]
  rfl

/-- Surroundings in which every call succeeds, on a day. -/
def soundOn (day : Int) : Env := { sound with unix := day * 86400 }

/-- A contact comes in, and the proxy has every contact told on the next day. -/
def syncedOnce : List Turn :=
  filled ++ [([], .maintenanceTick (soundOn 1)), ([], .radio (soundOn 1) [0x04, 0, 0, 0, 0])]

theorem purged_contact_missing_moved_run : Except.Holds (do
    let c₀ ← (Core.new ⟨.off, true, false, ⟨0, 0, 1, 0⟩, .off⟩ .empty).start sound
      ⟨true, [.frame [0x05], .frame [0x0D, 9, 1, 1]], sound, sound, sound⟩ []
    let (t, c₁) ← c₀.laps syncedOnce
    let c₂ ← c₁.step [] (.maintenanceTick (soundOn 2))
    return (c₀, t, c₁, c₂)) fun (_, _, c₁, c₂) =>
      ((((c₁.begin []).resync (soundOn 2)).db.contacts.lookup (List.replicate 32 7)).isSome ∧
      (c₂.db.contacts.lookup (List.replicate 32 7)).isNone) := by
  decide +kernel

/-- A contact that was there on day 0 and not on day 1, with a retention of a day. -/
theorem purged_contact_missing_moved : ∃ l s c, Service (l ++ [.turn s]) c ∧ s.Purges (List.replicate 32 7) ∧
    ∃ n, LastSync l n := by
  obtain ⟨⟨c₀, t, c₁, c₂⟩, hrun, hthere, hgone⟩ := purged_contact_missing_moved_run
  obtain ⟨_, hboot, hrun⟩ := Except.of_bind_eq_ok hrun
  obtain ⟨⟨_, _⟩, hlaps, hrun⟩ := Except.of_bind_eq_ok hrun
  obtain ⟨_, hstep, hrun⟩ := Except.of_bind_eq_ok hrun
  cases hrun
  obtain ⟨htrace, hturns⟩ := Trace.of_laps hlaps
  have hservice := ((Service.install hboot).trace htrace).turn hstep
  have hpurges : Lap.Purges ⟨c₁, [], .maintenanceTick (soundOn 2), c₂⟩ (List.replicate 32 7) :=
    ⟨_, rfl, Option.isSome_iff_ne_none.mp hthere, Option.isNone_iff_eq_none.mp hgone⟩
  have hclock : ([Deed.boot sound ⟨true, [.frame [0x05], .frame [0x0D, 9, 1, 1]], sound, sound, sound⟩ [] c₀] ++
      t.map Deed.turn).flatMap Deed.clock = ([0, 0, 0, 0, 0, 0, 0, 86400, 86400] : List Int) := by
    rw [List.flatMap_append, clock_laps hlaps]
    rfl
  have hsteady :
      Steady ([Deed.boot sound ⟨true, [.frame [0x05], .frame [0x0D, 9, 1, 1]], sound, sound, sound⟩ [] c₀] ++
        t.map .turn) := by
    constructor
    · rw [hclock]
      decide
    · rw [hclock]
      simp
  have hok (u : Lap)
      (hu : .turn u ∈ [Deed.boot sound ⟨true, [.frame [0x05], .frame [0x0D, 9, 1, 1]], sound, sound, sound⟩ [] c₀] ++
      t.map .turn) : u.event.ok .upsertContact = true := by
    obtain ⟨u', hu', heq⟩ := List.mem_map.mp ((List.mem_append.mp hu).resolve_left (by simp))
    cases heq
    have hdb : u.event.DbOk :=
      dbOk_of_turns hturns (by simp [syncedOnce, filled, Event.DbOk, soundOn, sound, soundAt]) u hu'
    exact hdb.ok _
  exact ⟨_, _, _, hservice, hpurges, (purged_contact_missing hservice hsteady hok rfl hpurges).2.1⟩

end

/-! ### Clients -/

section
variable {c c₁ c₂ : Core} {env : Env} {who : Identity} {row : ClientRow} {p q : Prop} {time : Int}
  {cid : ClientId} {s : Session}

/-- The maintenance forgets clients: it is set to, and no call fails before. -/
def Forgetting (c : Core) (env : Env) : Prop :=
  let r := c.config.retention
  r.clientsDays > 0 ∧ (r.messagesDays > 0 → env.dbOk .purgeMessages = true) ∧
    (r.rawRxDays > 0 → env.dbOk .purgeRawRx = true) ∧
    (r.contactsDays > 0 → env.dbOk .readSyncedAt = true ∧
      (c.db.contactsSyncedAt ≠ none → env.dbOk .purgeContacts = true)) ∧ env.dbOk .purgeClients = true

theorem purge_flag (q : Prop) [Decidable q] {call : DbCall} {g : NodeState → NodeState} {s : NodeState × Bool} :
    (if q then purge env call g s else s).2 = true ↔ s.2 = true ∧ (q → env.dbOk call = true) := by
  unfold purge
  split
  · rename_i hq
    cases hs : s.2 <;> cases hok : env.dbOk call <;> simp [hq]
  · rename_i hq
    simp [hq]

theorem purge_keeps {α : Type} (π : NodeState → α) (q : Prop) [Decidable q] {call : DbCall}
    {g : NodeState → NodeState} {s : NodeState × Bool} (hg : ∀ db, π (g db) = π db) :
    π (if q then purge env call g s else s).1 = π s.1 := by
  unfold purge
  split
  · split
    · exact hg s.1
    · rfl
  · rfl

/-- Who is forgotten by the maintenance. -/
theorem maintain_forgets_iff (env : Env) (hrow : c.db.clients.lookup who = some row) :
    (c.maintain env).db.clients.lookup who = none ↔
    c.Forgetting env ∧ row.lastConnectedAt < NodeState.cutoff env.unix c.config.retention.clientsDays := by
  let r := c.config.retention
  let s₁ := if r.messagesDays > 0 then purge env .purgeMessages (·.purgeMessages env.unix r.messagesDays) (c.db, true)
    else (c.db, true)
  let s₂ := if r.rawRxDays > 0 then purge env .purgeRawRx (·.purgeRawRx env.unix r.rawRxDays) s₁ else s₁
  let s₃ := if r.contactsDays > 0 then c.purgeStale env s₂ else s₂
  have hrest {α : Type} (π : NodeState → α) (hmessages : ∀ db now n, π (NodeState.purgeMessages db now n) = π db)
      (hraw : ∀ db now n, π (NodeState.purgeRawRx db now n) = π db) : π s₂.1 = π c.db :=
    (purge_keeps π _ fun db => hraw db _ _).trans (purge_keeps π _ fun db => hmessages db _ _)
  have hsynced : s₂.1.contactsSyncedAt = c.db.contactsSyncedAt := hrest _ (fun _ _ _ => rfl) fun _ _ _ => rfl
  have hflag₂ : s₂.2 = true ↔ (r.messagesDays > 0 → env.dbOk .purgeMessages = true) ∧
      (r.rawRxDays > 0 → env.dbOk .purgeRawRx = true) := by
    rw [purge_flag, purge_flag]
    simp
  have hclients₂ : s₂.1.clients = c.db.clients := hrest (·.clients) (fun _ _ _ => rfl) fun _ _ _ => rfl
  have hthird : s₃.1.clients = c.db.clients ∧
      (s₃.2 = true ↔ s₂.2 = true ∧ (r.contactsDays > 0 → env.dbOk .readSyncedAt = true ∧
      (c.db.contactsSyncedAt ≠ none → env.dbOk .purgeContacts = true))) := by
    rw [← hclients₂, ← hsynced]
    dsimp only [s₃]
    generalize s₂ = s
    by_cases hdays : r.contactsDays > 0
    · rw [if_pos hdays]
      unfold purgeStale purge
      cases hok : s.2 <;> cases hread : env.dbOk .readSyncedAt <;> cases hpurge : env.dbOk .purgeContacts <;>
        cases htime : s.1.contactsSyncedAt <;> simp [hdays, htime, NodeState.purgeContacts]
    · simp [hdays]
  obtain ⟨hclients, hflag⟩ := hthird
  have hlast :
      (c.maintain env).db =
      (if r.clientsDays > 0 then purge env .purgeClients (·.purgeClients env.unix r.clientsDays) s₃ else s₃).1 := rfl
  rw [hflag₂] at hflag
  rw [hlast]
  generalize s₃ = s at hclients hflag
  have hrow : s.1.clients.lookup who = some row := hclients ▸ hrow
  by_cases hruns : r.clientsDays > 0 ∧ s.2 = true ∧ env.dbOk .purgeClients = true
  · obtain ⟨hdays, hok, hpurge⟩ := hruns
    have hgone : (purge env .purgeClients (·.purgeClients env.unix r.clientsDays) s).1.clients.lookup who =
        (some row).filter fun row => !decide (row.lastConnectedAt < NodeState.cutoff env.unix r.clientsDays) := by
      rw [purge, hok, hpurge, ← hrow]
      exact Table.lookup_retain
    obtain ⟨⟨hmessages, hraw⟩, hcontacts⟩ := hflag.mp hok
    have hforgets : c.Forgetting env := ⟨hdays, hmessages, hraw, hcontacts, hpurge⟩
    rw [if_pos hdays, hgone, and_iff_right hforgets]
    simp [Option.filter, r]
  · have hsame :
        (if r.clientsDays > 0 then purge env .purgeClients (·.purgeClients env.unix r.clientsDays) s
          else s).1.clients = s.1.clients := by
      split
      · rename_i hdays
        unfold purge
        split
        · rename_i hok
          rw [Bool.and_eq_true] at hok
          exact absurd ⟨hdays, hok⟩ hruns
        · rfl
      · rfl
    rw [hsame, hrow]
    refine iff_of_false (by simp) fun h => hruns ?_
    obtain ⟨⟨hdays, hmessages, hraw, hcontacts, hpurge⟩, -⟩ := h
    exact ⟨hdays, hflag.mpr ⟨⟨hmessages, hraw⟩, hcontacts⟩, hpurge⟩

/-- The row of `who` is written now if `p`, and not otherwise. -/
def Touched (p : Prop) (time : Int) (who : Identity) (c c₁ : Core) : Prop :=
  p ∧ (∃ row, c₁.db.clients.lookup who = some row ∧ row.lastConnectedAt = time) ∨
    ¬p ∧ c₁.db.clients.lookup who = c.db.clients.lookup who

theorem Touched.of_eq (hp : ¬p) (h : c₁.db.clients = c.db.clients) : Touched p time who c c₁ := Or.inr ⟨hp, by rw [h]⟩

theorem Touched.trans (h₁ : Touched p time who c c₁) (h₂ : Touched q time who c₁ c₂) :
    Touched (p ∨ q) time who c c₂ := by
  rcases h₂ with ⟨hq, hrow⟩ | ⟨hq, hsame⟩
  · exact Or.inl ⟨Or.inr hq, hrow⟩
  · rw [Touched, hsame]
    exact h₁.imp (And.imp_left Or.inl) (And.imp_left fun hp h => h.elim hp hq)

theorem Touched.iff (h : Touched p time who c c₁) (hpq : p ↔ q) : Touched q time who c c₁ := propext hpq ▸ h

theorem Touched.same (h : Touched p time who c c₁) (hafter : c₂.db.clients = c₁.db.clients) :
    Touched p time who c c₂ := by
  rw [Touched, hafter]
  exact h

theorem advanceClientCursor_touched (who' : Identity) (id : MessageId) :
    Touched (who = who') env.unix who c (c.advanceClientCursor env who' id) := by
  simp only [Touched, advanceClientCursor, NodeState.advanceClientCursor, Table.lookup_insert_eq]
  by_cases h : who = who'
  · refine Or.inl ⟨h, _, if_pos h, ?_⟩
    unfold NodeState.advancedRow
    split <;> rfl
  · exact Or.inr ⟨h, if_neg h⟩

theorem followHead_touched (id : MessageId) :
    Touched (who ∈ c.dropGoneSessions.caughtUp ∧ env.dbOk (.followHead who) = true) env.unix who c
    (c.followHead env id) := by
  have hfold (l : List Identity) (c : Core) : Touched (who ∈ l ∧ env.dbOk (.followHead who) = true) env.unix who c
      (l.foldl (fun c who => if env.dbOk (.followHead who) then c.advanceClientCursor env who id else c) c) := by
    induction l generalizing c with
    | nil => exact .of_eq (by simp) rfl
    | cons who' l ih =>
      rw [List.foldl_cons]
      have hfirst : Touched (who = who' ∧ env.dbOk (.followHead who') = true) env.unix who c
          (if env.dbOk (.followHead who') then c.advanceClientCursor env who' id else c) := by
        cases hok : env.dbOk (.followHead who')
        · exact .of_eq (by simp) rfl
        · exact (advanceClientCursor_touched who' id).iff (by simp)
      refine (hfirst.trans (ih _)).iff ?_
      rw [List.mem_cons, or_and_right]
      refine or_congr_left (and_congr_right fun heq => ?_)
      rw [heq]
  exact hfold _ c.dropGoneSessions

theorem storeMessage_touched {msg : NewMessage} : Touched ((c.storeMessage env msg).db.messageSeq ≠ c.db.messageSeq ∧
    env.dbOk (.followHead who) = true ∧ who ∈ (c.storeMessage env msg).caughtUp) env.unix who c
    (c.storeMessage env msg) := by
  unfold storeMessage
  split
  · dsimp only
    have hclients : ({ c with db := c.db.insertMessage env.unix msg }.emit (.stored (c.db.newRow env.unix msg)
      (c.db.insertMessage env.unix msg).clients.keys)).db.clients = c.db.clients := rfl
    have hseq : ({ c with db := c.db.insertMessage env.unix msg }.emit (.stored (c.db.newRow env.unix msg)
      (c.db.insertMessage env.unix msg).clients.keys)).db.messageSeq = c.db.messageSeq + 1 := rfl
    generalize { c with db := c.db.insertMessage env.unix msg }.emit (.stored (c.db.newRow env.unix msg)
      (c.db.insertMessage env.unix msg).clients.keys) = b at hclients hseq
    have hfollow : Touched (who ∈ b.dropGoneSessions.caughtUp ∧ env.dbOk (.followHead who) = true) env.unix who c
        (b.followHead env (c.db.newRow env.unix msg).id) := by
      rw [Touched, ← hclients]
      exact followHead_touched _
    obtain ⟨rows, hform, -⟩ := followHead_form b env (c.db.newRow env.unix msg).id
    refine hfollow.iff ?_
    rw [hform]
    have hne : b.db.messageSeq ≠ c.db.messageSeq := hseq ▸ (Int.lt_succ _).ne'
    exact ⟨fun h => ⟨hne, h.2, h.1⟩, fun h => ⟨h.2.2, h.2.1⟩⟩
  · exact .of_eq (fun h => h.1 rfl) rfl

theorem registerSession_touched {cmd : ClientCommand} : Touched ((cmd.localPort, appNameOf cmd.payload) = who ∧
    env.dbOk .registerAdvance = true) env.unix who c (c.registerSession env cmd) := by
  unfold registerSession
  dsimp only
  split
  · rename_i hok
    exact ((advanceClientCursor_touched _ _).iff (by simp [hok, eq_comm])).same rfl
  · rename_i hok
    exact .of_eq (fun h => hok h.2) rfl

theorem replayPending_touched (c : Core) (env : Env) (cid : ClientId) (s : Session) (who : Identity)
    (pending : List MessageId) : Touched (s.identity = who ∧ c.firstFrame env pending ≠ none ∧
    env.dbOk .replayAdvance = true) env.unix who c (c.replayPending env cid s pending).2 := by
  rcases replayPending_cases c env cid s pending with ⟨hnone, heq⟩ | ⟨_, id, rest, frame, -, -, hfirst, heq⟩
  · refine .of_eq (fun h => h.2.1 hnone) ?_
    rw [heq]
    dsimp only
    split <;> rfl
  · rw [heq, hfirst]
    obtain ⟨-, -, -, -, hclients⟩ := served_fields c env cid s id frame rest
    cases hok : env.dbOk .replayAdvance with
    | true =>
      rw [hok, if_pos rfl] at hclients
      exact ((advanceClientCursor_touched s.identity id).iff (by simp [eq_comm])).same hclients
    | false =>
      rw [hok, if_neg (by decide)] at hclients
      exact .of_eq (by simp) hclients

theorem replayNextMissed_touched :
    Touched (c.identityOf cid = some who ∧ (c.nextMissed env cid ≠ none ∧ env.dbOk .replayAdvance = true ∨
    (c.replayNextMissed env cid).2.isCaughtUp cid = true ∧ env.dbOk .replayHead = true ∧
      env.dbOk .replayCatchUp = true)) env.unix who c (c.replayNextMissed env cid).2 := by
  unfold replayNextMissed nextMissed
  cases hs : c.sessions.lookup cid with
  | none => exact .of_eq (by simp [identityOf, hs]) rfl
  | some s =>
    have hidentity := identityOf_of_lookup hs
    have hreplay := replayPending_touched c env cid s who s.pending
    dsimp only [Option.bind_some]
    generalize (c.replayPending env cid s s.pending).2 = c₁ at hreplay
    have hcatch :
        Touched (s.identity = who ∧ c₁.isCaughtUp cid = true ∧ env.dbOk .replayHead = true ∧
          env.dbOk .replayCatchUp = true)
        env.unix who c₁ (if c₁.isCaughtUp cid && env.dbOk .replayHead && env.dbOk .replayCatchUp then
          c₁.advanceClientCursor env s.identity c₁.db.messageHead else c₁) := by
      split
      · rename_i hok
        simp only [Bool.and_eq_true] at hok
        exact (advanceClientCursor_touched s.identity _).iff (by simp [hok, eq_comm])
      · rename_i hok
        exact .of_eq (fun h => hok (by simp [h.2])) rfl
    refine (hreplay.trans hcatch).iff ?_
    have hsame : (if c₁.isCaughtUp cid && env.dbOk .replayHead && env.dbOk .replayCatchUp then
        c₁.advanceClientCursor env s.identity c₁.db.messageHead else c₁).isCaughtUp cid = c₁.isCaughtUp cid := by
      split <;> rfl
    rw [hsame, hidentity, Option.some_inj, ← and_or_left]

/-! ### Turns -/

namespace Lap

/-- The turn moves the cursor of the client: as it identifies itself, as it is replayed a message or has none left,
    and as a message is stored while it is connected and has none left. -/
def Follows (s : Lap) (who : Identity) : Prop :=
  match s.event with
  | .command env cmd => cmd.clientId ∈ (s.before.begin s.frontend).clients.lock.channels ∧
      (cmd.payload.head? = some 0x01 ∧ (cmd.localPort, appNameOf cmd.payload) = who ∧ env.dbOk .registerAdvance = true ∨
        cmd.payload.head? = some 0x0A ∧ s.before.identityOf cmd.clientId = some who ∧
          (s.before.nextMissed env cmd.clientId ≠ none ∧ env.dbOk .replayAdvance = true ∨
            s.after.isCaughtUp cmd.clientId = true ∧ env.dbOk .replayHead = true ∧ env.dbOk .replayCatchUp = true))
  | .radio env _ => s.after.db.messageSeq ≠ s.before.db.messageSeq ∧ env.dbOk (.followHead who) = true ∧
      who ∈ s.after.caughtUp
  | .timeoutTick _ | .maintenanceTick _ | .disconnected _ | .idle => False

/-- The turn deletes the row of the client. -/
def Forgets (s : Lap) (who : Identity) : Prop :=
  s.before.db.clients.lookup who ≠ none ∧ s.after.db.clients.lookup who = none

end Lap

/-- A row is of the time of the turn, if this moves the cursor; otherwise it was there before. -/
theorem step_follows {s : Lap} (hd : Deals (s.before.begin s.frontend) s.event s.after)
    (hrow : s.after.db.clients.lookup who = some row) :
    s.Follows who ∧ row.lastConnectedAt ∈ s.event.clock ∨
    ¬s.Follows who ∧ s.before.db.clients.lookup who = some row := by
  have hquiet (h : Quiet (s.before.begin s.frontend) s.after) : s.before.db.clients.lookup who = some row := by
    obtain ⟨-, -, -, hclients, -⟩ := h.fields
    rw [← hrow, hclients]
    rfl
  have htouched {p : Prop} {env : Env} {b b₁ : Core} (hclock : s.event.clock = [env.unix])
      (hb : Quiet (s.before.begin s.frontend) b) (h : Touched p env.unix who b b₁) (hafter : Quiet b₁ s.after)
      (hp : s.Follows who ↔ p) :
      s.Follows who ∧ row.lastConnectedAt ∈ s.event.clock ∨ ¬s.Follows who ∧
      s.before.db.clients.lookup who = some row := by
    obtain ⟨-, -, -, hclients, -⟩ := hafter.fields
    rw [hclients] at hrow
    rw [hp, hclock]
    rcases h with ⟨hp, row', hrow', htime⟩ | ⟨hp, hsame⟩
    · obtain rfl := Option.some.inj (hrow.symm.trans hrow')
      exact Or.inl ⟨hp, List.mem_singleton.mpr htime⟩
    · obtain ⟨-, -, -, hclients, -⟩ := hb.fields
      refine Or.inr ⟨hp, ?_⟩
      rw [← hrow, hsame, hclients]
      rfl
  obtain ⟨before, frontend, e, after⟩ := s
  cases hd with
  | register alive head hb hafter =>
    refine htouched rfl hb registerSession_touched hafter ?_
    refine ⟨fun h => ?_, fun h => ⟨alive, Or.inl ⟨head, h⟩⟩⟩
    refine (h.2.resolve_right fun h => ?_).2
    rw [head] at h
    exact absurd h.1 (by decide)
  | poll alive head hb hafter =>
    refine htouched rfl hb replayNextMissed_touched hafter ?_
    rw [hb.identityOf, hb.nextMissed, ← hafter.isCaughtUp]
    refine ⟨fun h => ?_, fun h => ⟨alive, Or.inr ⟨head, h⟩⟩⟩
    refine (h.2.resolve_left fun h => ?_).2
    rw [head] at h
    exact absurd h.1 (by decide)
  | serve other same =>
    refine Or.inr ⟨fun h => ?_, hquiet same⟩
    obtain ⟨hstart, hpoll⟩ := other h.1
    exact h.2.elim (fun h => hstart h.1) fun h => hpoll h.1
  | store _ hb hafter =>
    refine htouched rfl hb storeMessage_touched hafter ?_
    obtain ⟨-, -, hseq, -, -⟩ := hb.fields
    obtain ⟨-, -, hseq', -, -⟩ := hafter.fields
    rw [hseq, ← hseq', ← hafter.caughtUp]
    rfl
  | hear same =>
    obtain ⟨-, -, hseq, -, -⟩ := same.fields
    exact Or.inr ⟨fun h => h.1 hseq, hquiet same⟩
  | @purge env b _ hb hafter =>
    refine Or.inr ⟨id, ?_⟩
    obtain ⟨-, -, -, hclients, -⟩ := hb.fields
    rw [hafter] at hrow
    rcases (maintain_purged b env).clients who with hsame | ⟨-, hgone, -⟩
    · rw [← hrow, hsame, hclients]
      rfl
    · rw [hgone] at hrow
      cases hrow
  | rest silent same =>
    refine Or.inr ⟨?_, hquiet same⟩
    rcases silent with ⟨_, rfl⟩ | ⟨_, rfl⟩ | rfl <;> exact id

theorem Lap.Follows.clock {s : Lap} (h : s.Follows who) {t t' : Int} (ht : t ∈ s.event.clock)
    (ht' : t' ∈ s.event.clock) : t = t' := by
  obtain ⟨before, frontend, e, after⟩ := s
  cases e with
  | command | radio => exact (List.mem_singleton.mp ht).trans (List.mem_singleton.mp ht').symm
  | timeoutTick | maintenanceTick | disconnected | idle => exact h.elim

/-- A client is forgotten by maintenance that forgets clients, once its row is old enough. -/
theorem Lap.forgets_iff {s : Lap} (hs : s.before.step s.frontend s.event = .ok s.after)
    (he : s.event = .maintenanceTick env) (hrow : s.before.db.clients.lookup who = some row) : s.Forgets who ↔
      s.before.Forgetting env ∧ row.lastConnectedAt <
      NodeState.cutoff env.unix s.before.config.retention.clientsDays := by
  rw [he] at hs
  have hafter : s.after = ((s.before.begin s.frontend).resync env).maintain env := (Except.ok.inj hs).symm
  have hquiet : Quiet (s.before.begin s.frontend) ((s.before.begin s.frontend).resync env) := resync_quiet
  obtain ⟨hconfig, -, -, hclients, -⟩ := hquiet.fields
  have hrow' : ((s.before.begin s.frontend).resync env).db.clients.lookup who = some row := by rw [hclients]; exact hrow
  have hforgetting : ((s.before.begin s.frontend).resync env).Forgetting env ↔ s.before.Forgetting env := by
    rw [Forgetting, Forgetting, hconfig, resync_synced]
    rfl
  have hforgets := maintain_forgets_iff env hrow'
  rw [hforgetting, hconfig] at hforgets
  rw [Lap.Forgets, hrow, hafter]
  exact ⟨fun h => hforgets.mp h.2, fun h => ⟨nofun, hforgets.mpr h⟩⟩

theorem start_clients {config : Config} {db : NodeState} {first : Attempt} {attempts : List Attempt}
    (h : (Core.new config db).start env first attempts = .ok c) : c.db.clients = db.clients := by
  obtain ⟨-, -, -, hclients, -⟩ := (start_quiet h).fields
  exact hclients

/-- The row of a client is of the turn that moved its cursor last. -/
theorem Service.client_since {l : List Deed} (h : Service l c) (hrow : c.db.clients.lookup who = some row) :
    Since (Deed.Turns fun u => u.Follows who ∧ row.lastConnectedAt ∈ u.event.clock) (fun d => ¬d.Turns fun u =>
      u.Follows who) l := by
  induction h with
  | install hstart =>
    rw [start_clients hstart] at hrow
    cases hrow
  | restart _ hstart ih =>
    rw [start_clients hstart] at hrow
    rw [since_concat]
    exact Or.inr ⟨ih hrow, id⟩
  | @turn l c c₁ frontend e hservice hs ih =>
    obtain ⟨_, ha⟩ := hservice.accounted
    rw [since_concat]
    rcases step_follows (s := ⟨c, frontend, e, c₁⟩) (step_deals hs ha.awaiting) hrow with hnow | ⟨hnot, hbefore⟩
    · exact Or.inl hnow
    · exact Or.inr ⟨ih hbefore, hnot⟩

/-- A connection of the client is open. -/
def Serves (c : Core) (who : Identity) : Prop := ∃ cid ∈ c.clients.channels, c.identityOf cid = some who

/-- A connection of the client was open in one of the turns, at that time or later. -/
def OpenSince (l : List Deed) (who : Identity) (time : Int) : Prop :=
  ∃ u t, .turn u ∈ l ∧ t ∈ u.event.clock ∧ time ≤ t ∧ (u.before.Serves who ∨ u.after.Serves who)

/-- A turn moved the cursor of the client, at that time or later. -/
def FollowsSince (l : List Deed) (who : Identity) (time : Int) : Prop :=
  ∃ u t, .turn u ∈ l ∧ t ∈ u.event.clock ∧ time ≤ t ∧ u.Follows who

/-- Maintenance forgets no client that was connected lately if each of these, if it has a row to lose, had its
    cursor moved lately. -/
theorem connected_client_kept_iff {l l' : List Deed} {s : Lap} (h : Service (l ++ .turn s :: l') c) (hsteady : Steady l)
    (he : s.event = .maintenanceTick env) :
    (∀ who, s.Forgets who →
      ¬(s.before.Serves who ∨ OpenSince l who (NodeState.cutoff env.unix s.before.config.retention.clientsDays))) ↔
    ∀ who, s.before.db.clients.lookup who ≠ none → s.before.Forgetting env →
      s.before.Serves who ∨ OpenSince l who (NodeState.cutoff env.unix s.before.config.retention.clientsDays) →
      FollowsSince l who (NodeState.cutoff env.unix s.before.config.retention.clientsDays) := by
  obtain ⟨hservice, hs⟩ := h.split
  refine forall_congr' fun who => ⟨fun hkept hknown hforgetting hopen => ?_, fun hfollows hforgets hopen => ?_⟩
  · obtain ⟨row, hrow⟩ := Option.ne_none_iff_exists'.mp hknown
    obtain ⟨l₁, d, l₂, rfl, hlast, -⟩ := hservice.client_since hrow
    cases d with
    | boot => exact hlast.elim
    | turn u =>
      refine ⟨u, row.lastConnectedAt, by simp, hlast.2, ?_, hlast.1⟩
      by_contra hold
      exact hkept ((Lap.forgets_iff hs he hrow).mpr ⟨hforgetting, not_le.mp hold⟩) hopen
  · obtain ⟨row, hrow⟩ := Option.ne_none_iff_exists'.mp hforgets.1
    obtain ⟨hforgetting, hold⟩ := (Lap.forgets_iff hs he hrow).mp hforgets
    obtain ⟨u, t, hu, ht, hrecent, hfollow⟩ := hfollows hforgets.1 hforgetting hopen
    obtain ⟨l₁, d, l₂, rfl, hlast, hafter⟩ := hservice.client_since hrow
    cases d with
    | boot => exact hlast.elim
    | turn a =>
      have hle : t ≤ row.lastConnectedAt := by
        rcases List.mem_append.mp hu with hu | hu
        · exact hsteady.le (List.mem_flatMap.mpr ⟨_, hu, ht⟩) (List.mem_flatMap.mpr ⟨_, List.mem_cons_self, hlast.2⟩)
        · rcases List.mem_cons.mp hu with heq | hu
          · cases heq
            exact le_of_eq (hlast.1.clock ht hlast.2)
          · exact absurd hfollow (hafter _ hu)
      exact absurd (lt_of_le_of_lt (le_trans hrecent hle) hold) (lt_irrefl _)

/-- A proxy that forgets clients after a day, and client 1 that identifies itself as `a`. -/
def joined : Except Panic Core := do
  let c ← (Core.new ⟨.off, true, false, ⟨0, 0, 0, 1⟩, .off⟩ .empty).start sound ⟨true,
      [.frame [0x05], .frame [0x0D, 9, 1, 1]], sound, sound, sound⟩ []
  c.step [[.connect]] (startOf 1)

theorem joined_service (h : joined = .ok c) : ∃ l, Service l c ∧ l.flatMap Deed.clock = [0, 0, 0, 0, 0] := by
  obtain ⟨c₀, hboot, hstep⟩ := Except.of_bind_eq_ok h
  exact ⟨_, (Service.install hboot).turn hstep, rfl⟩

/-- The client polls on day 2, and is kept. -/
theorem connected_client_kept_polling : ∃ l s c, Service (l ++ [.turn s]) c ∧ s.event = .maintenanceTick (soundOn 2) ∧
    s.before.Serves (5000, [0x61]) ∧ ¬s.Forgets (5000, [0x61]) := by
  have hrun : Except.Holds (do
      let c₁ ← joined
      let c₂ ← c₁.step [] (.command (soundOn 2) ⟨1, 5000, [0x0A]⟩)
      let c₃ ← c₂.step [] (.maintenanceTick (soundOn 2))
      return (c₁, c₂, c₃)) fun (c₁, c₂, _) =>
        (1 ∈ (c₁.begin []).clients.lock.channels ∧ c₁.identityOf 1 = some (5000, [0x61])) ∧
        (1 ∈ c₂.clients.channels ∧ c₂.identityOf 1 = some (5000, [0x61]) ∧ c₂.isCaughtUp 1 = true) ∧
        c₂.db.clients.keys = [(5000, [0x61])] ∧ c₂.config.retention.clientsDays = 1 := by
    decide +kernel
  obtain ⟨⟨c₁, c₂, c₃⟩, hrun, ⟨halive, hwho₁⟩, ⟨hcid, hwho₂, hcaught⟩, hkeys, hdays⟩ := hrun
  obtain ⟨_, hjoined, hrun⟩ := Except.of_bind_eq_ok hrun
  obtain ⟨_, hpoll, hrun⟩ := Except.of_bind_eq_ok hrun
  obtain ⟨_, hstep, hrun⟩ := Except.of_bind_eq_ok hrun
  cases hrun
  obtain ⟨l, hservice, hclock⟩ := joined_service hjoined
  have hfollows : Lap.Follows ⟨c₁, [], .command (soundOn 2) ⟨1, 5000, [0x0A]⟩, c₂⟩ (5000, [0x61]) :=
    ⟨halive, Or.inr ⟨rfl, hwho₁, Or.inr ⟨hcaught, rfl, rfl⟩⟩⟩
  have hsteady : Steady (l ++ [.turn ⟨c₁, [], .command (soundOn 2) ⟨1, 5000, [0x0A]⟩, c₂⟩]) := by
    have hclock : (l ++ [Deed.turn ⟨c₁, [], .command (soundOn 2) ⟨1, 5000, [0x0A]⟩, c₂⟩]).flatMap Deed.clock =
        ([0, 0, 0, 0, 0, 172800] : List Int) := by
      rw [List.flatMap_append, hclock]
      rfl
    exact ⟨hclock ▸ by decide, hclock ▸ by simp⟩
  have hall := (hservice.turn hpoll).turn hstep
  refine ⟨_, _, _, hall, rfl, ⟨1, hcid, hwho₂⟩, fun hforgets => ?_⟩
  refine (connected_client_kept_iff hall hsteady rfl).mpr (fun who hknown _ _ => ?_) (5000, [0x61]) hforgets
    (Or.inl ⟨1, hcid, hwho₂⟩)
  have hmem : who ∈ c₂.db.clients.keys :=
    AList.mem_keys.mp (AList.lookup_isSome.mp (Option.isSome_iff_ne_none.mpr hknown))
  rw [hkeys, List.mem_singleton] at hmem
  subst hmem
  refine ⟨_, 172800, List.mem_append_right _ (List.mem_singleton_self _), List.mem_singleton_self _, ?_, hfollows⟩
  rw [show c₂.config.retention.clientsDays = 1 from hdays]
  decide

/-- A client that is connected all the time, and has nothing to read, is forgotten on day 2. -/
theorem connected_client_forgotten : ∃ l s c, Service (l ++ [.turn s]) c ∧ Steady l ∧
    s.event = .maintenanceTick (soundOn 2) ∧
    s.before.config.retention.clientsDays = 1 ∧ s.Forgets (5000, [0x61]) ∧ s.before.Serves (5000, [0x61]) ∧
    s.after.Serves (5000, [0x61]) := by
  have hrun : Except.Holds (do
      let c₁ ← joined
      let c₂ ← c₁.step [] (.maintenanceTick (soundOn 2))
      return (c₁, c₂)) fun (c₁, c₂) => c₁.config.retention.clientsDays = 1 ∧
        (c₁.db.clients.lookup (5000, [0x61]) ≠ none ∧ c₂.db.clients.lookup (5000, [0x61]) = none) ∧
        (1 ∈ c₁.clients.channels ∧ c₁.identityOf 1 = some (5000, [0x61])) ∧
        1 ∈ c₂.clients.channels ∧ c₂.identityOf 1 = some (5000, [0x61]) := by
    decide +kernel
  obtain ⟨⟨c₁, c₂⟩, hrun, hdays, hforgets, ⟨hcid, hwho⟩, hcid', hwho'⟩ := hrun
  obtain ⟨_, hjoined, hrun⟩ := Except.of_bind_eq_ok hrun
  obtain ⟨_, hstep, hrun⟩ := Except.of_bind_eq_ok hrun
  cases hrun
  obtain ⟨l, hservice, hclock⟩ := joined_service hjoined
  exact ⟨l, _, _, hservice.turn hstep, ⟨hclock ▸ by decide, hclock ▸ by simp⟩, rfl, hdays, hforgets, ⟨1, hcid, hwho⟩,
    1, hcid', hwho'⟩

end
end Core
end CoreSplitter
