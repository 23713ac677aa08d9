import CoreSplitter.Theorems.Mirror

/-! The cached contacts: which commands change them and when, and what a client gets that reads them. -/

namespace CoreSplitter
open Bytes

namespace Core

/-! ### One request at a time -/

/-- A request is sent if the radio is free, and none if not; none fails to be sent where requests can be sent. -/
def Sends (sends : Bool) (c c₁ : Core) : Prop :=
  ∃ es, c₁.out = c.out ++ es ∧ (∀ q, .ended q .sendFailed ∈ es → sends = false) ∧
    (sentToRadio es = [] ∧ c₁.inFlight = c.inFlight ∨
      c.inFlight = none ∧ sends = true ∧ ∃ q, sentToRadio es = [q] ∧ c₁.inFlight ≠ none)

/-- Nothing is sent, and nothing fails to be sent. -/
def Unsent (c c₁ : Core) : Prop :=
  ∃ es, c₁.out = c.out ++ es ∧ sentToRadio es = [] ∧ ∀ q, .ended q .sendFailed ∉ es

section
variable {b : Bool} {orderly : Prop} {c c₁ c₂ : Core} {env : Env} {t : Option Ticket} {p : Effect → Prop}
  {f : InFlight} {code : UInt8} {frame : Bytes} {frontend : List (List FrontendOp)} {e : Event} {q : Queued}

theorem Sends.refl : Sends b c c := ⟨[], by simp, by simp, Or.inl ⟨rfl, rfl⟩⟩

theorem Sends.trans (h₁ : Sends b c c₁) (h₂ : Sends b c₁ c₂) : Sends b c c₂ := by
  obtain ⟨es₁, hout₁, hfailed₁, hsent₁⟩ := h₁
  obtain ⟨es₂, hout₂, hfailed₂, hsent₂⟩ := h₂
  refine ⟨es₁ ++ es₂, by rw [hout₂, hout₁, List.append_assoc], fun q hq => ?_, ?_⟩
  · exact (List.mem_append.mp hq).elim (hfailed₁ q) (hfailed₂ q)
  · rw [sentToRadio_append]
    rcases hsent₁ with ⟨hnil₁, hslot₁⟩ | ⟨hfree, hsends, q, hq, hbusy⟩
    · rw [hnil₁, List.nil_append, ← hslot₁]
      exact hsent₂
    · rcases hsent₂ with ⟨hnil₂, hslot₂⟩ | ⟨hfree₂, -⟩
      · exact Or.inr ⟨hfree, hsends, q, by rw [hq, hnil₂, List.append_nil], hslot₂ ▸ hbusy⟩
      · exact absurd hfree₂ hbusy

theorem Unsent.refl : Unsent c c := ⟨[], by simp, rfl, by simp⟩

theorem Unsent.trans (h₁ : Unsent c c₁) (h₂ : Unsent c₁ c₂) : Unsent c c₂ := by
  obtain ⟨es₁, hout₁, hsent₁, hfailed₁⟩ := h₁
  obtain ⟨es₂, hout₂, hsent₂, hfailed₂⟩ := h₂
  refine ⟨es₁ ++ es₂, by rw [hout₂, hout₁, List.append_assoc], by rw [sentToRadio_append, hsent₁, hsent₂]; rfl,
    fun q hq => ?_⟩
  exact (List.mem_append.mp hq).elim (hfailed₁ q) (hfailed₂ q)

theorem Unsent.of_out (h : c₁.out = c.out) : Unsent c c₁ := ⟨[], by simp [h], rfl, by simp⟩

theorem Kept.unsent (h : Kept p c c₁) (hp : ∀ e, p e → e.laneEvent = none) : Unsent c c₁ := by
  obtain ⟨es, hout, hes⟩ := h.out
  refine ⟨es, hout, sentToRadio_eq_nil fun q hq => ?_, fun q hq => laneEvent_ended (hp _ (hes _ hq))⟩
  cases hp _ (hes _ hq)

theorem Unsent.sends (h : Unsent c c₁) (hslot : c₁.inFlight = c.inFlight) : Sends b c c₁ := by
  obtain ⟨es, hout, hsent, hfailed⟩ := h
  exact ⟨es, hout, fun q hq => absurd hq (hfailed q), Or.inl ⟨hsent, hslot⟩⟩

theorem Kept.sends (h : Kept p c c₁) (hp : ∀ e, p e → e.laneEvent = none) : Sends b c c₁ := (h.unsent hp).sends h.slot

theorem failTo_unsent : Unsent c (c.failTo q) :=
  failTo_still.toKept.unsent fun _ ⟨_, _, _, _, _, h⟩ => by rw [h]; rfl

theorem ended_unsent {how : Ending} (hhow : how ≠ .sendFailed) : Unsent c (c.emit (.ended q how)) :=
  ⟨[.ended q how], rfl, rfl, fun q' hq' => by cases List.mem_singleton.mp hq'; exact hhow rfl⟩

theorem deliverReply_unsent : Unsent c (c.deliverReply env f code frame) :=
  deliverReply_still.toKept.unsent fun _ h => h.lane

theorem Move.sends (h : Move orderly env t c c₁) : Sends (c.canSend env) c c₁ := by
  cases h with
  | still h => exact h.toKept.sends fun _ h => h.lane
  | relay h => exact h.toKept.sends fun _ h => h.lane
  | submit clientId payload =>
    exact ⟨[.handed ⟨clientId, payload, c.nextTicket⟩], rfl, by simp, Or.inl ⟨rfl, rfl⟩⟩
  | jump clientId payload =>
    exact ⟨[.handed ⟨clientId, payload, c.nextTicket⟩], rfl, by simp, Or.inl ⟨rfl, rfl⟩⟩
  | @start q rest _ hfree hsend =>
    have hkept : Kept (fun _ => False) ((c.popped rest).emit (.radio q))
        (((c.popped rest).emit (.radio q)).invalidate env q.payload) := invalidate_kept
    exact ⟨[.radio q], hkept.silent, by simp, Or.inr ⟨hfree, hsend, q, rfl, nofun⟩⟩
  | @refuse q rest _ hsend =>
    obtain ⟨es, hout, hsent, -⟩ := failTo_unsent (c := c.popped rest) (q := q)
    refine ⟨es ++ [.ended q .sendFailed], ?_, fun _ _ => hsend, Or.inl ⟨?_, failTo_still.slot (c := c.popped rest)⟩⟩
    · rw [← List.append_assoc]
      exact congrArg (· ++ [.ended q .sendFailed]) hout
    · rw [sentToRadio_append, hsent]
      rfl
  | @drop q => exact ⟨[.ended q .clientGone], rfl, by simp, Or.inl ⟨rfl, rfl⟩⟩

theorem Moves.sends (h : Moves orderly env t c c₁) : Sends (c.canSend env) c c₁ := by
  induction h with
  | refl => exact .refl
  | @tail c₂ c₃ hms hm ih =>
    have hlink : c₂.canSend env = c.canSend env := by simp only [canSend, Moves.link hms]
    exact ih.trans (hlink ▸ hm.sends)

/-- After what sends nothing, one request is sent at most, and then none fails to be sent. -/
theorem Sends.one {c' : Core} (h₀ : Unsent c c') (h : Sends b c' c₁) (hout : c.out = []) :
    (sentToRadio c₁.out).length ≤ 1 ∧ ((∃ q, .ended q .sendFailed ∈ c₁.out) → sentToRadio c₁.out = []) := by
  obtain ⟨es₀, hout₀, hsent₀, hfailed₀⟩ := h₀
  obtain ⟨es, hout', hfailed, hsent⟩ := h
  have hall : sentToRadio c₁.out = sentToRadio es := by
    rw [hout', hout₀, hout, List.nil_append, sentToRadio_append, hsent₀, List.nil_append]
  rw [hall]
  rcases hsent with ⟨hnil, -⟩ | ⟨-, hsends, q, hq, -⟩
  · simp [hnil]
  · refine ⟨by simp [hq], fun ⟨q', hq'⟩ => ?_⟩
    rw [hout', hout₀, hout, List.nil_append] at hq'
    rcases List.mem_append.mp hq' with hq' | hq'
    · exact absurd hq' (hfailed₀ q')
    · exact absurd ((hfailed q' hq').symm.trans hsends) (by decide)

/-- A turn of the main loop, its reconnection apart, sends one request at most. -/
theorem handle_sends (hs : c.handle e = .ok c₁) (hvalid : c.clients.Valid) (hout : c.out = [])
    (hlink : ∀ attempts, e ≠ .disconnected attempts) :
    (sentToRadio c₁.out).length ≤ 1 ∧ ((∃ q, .ended q .sendFailed ∈ c₁.out) → sentToRadio c₁.out = []) := by
  cases e with
  | command env cmd => exact (handleClientCommand_works hs hvalid).moves.sends.one .refl hout
  | radio env frame =>
    rcases handleRadioRx_routed hs with ⟨rfl, rfl⟩ | ⟨code, rest, c', rfl, hcache, hr⟩
    · exact Sends.one (b := false) .refl .refl hout
    · have hcached : Unsent c (c'.recordRaw env code (code :: rest)) :=
        ((cacheResponse_kept (t := none) hcache).unsent fun _ h => h.lane).trans
          ((recordRaw_still (p := fun _ => False)).toKept.unsent fun _ h => h.elim)
      cases hr with
      | finish f _ _ h =>
        have hreply :
            Unsent (c'.recordRaw env code (code :: rest))
            { (c'.recordRaw env code (code :: rest)).deliverReply env f code
            (code :: rest) with inFlight := none } := deliverReply_unsent.trans (.of_out rfl)
        have hended :
            Unsent (c'.recordRaw env code (code :: rest)) ((c'.recordRaw env code (code :: rest)).finish env f code
            (code :: rest)) := hreply.trans (ended_unsent nofun)
        exact h.sends.one (hcached.trans hended) hout
      | part f _ _ h =>
        have hreply : Unsent (c'.recordRaw env code (code :: rest)) c₁ := h ▸ deliverReply_unsent.trans (.of_out rfl)
        exact Sends.one (b := false) (hcached.trans hreply) .refl hout
      | other _ h => exact h.sends.one hcached hout
  | timeoutTick env =>
    cases hs
    rcases checkInFlightTimeout_cases c env with h | ⟨f, hslot, -, h, -⟩
    · rw [h]
      exact Sends.one (b := false) .refl .refl hout
    · have hfree : Unsent c { c with inFlight := none } := .of_out rfl
      have hended : Unsent c (c.expire f) := (hfree.trans failTo_unsent).trans (ended_unsent nofun)
      exact h.sends.one hended hout
  | maintenanceTick env =>
    cases hs
    have hworks : Works env c (c.resync env) := resync_works
    exact hworks.moves.sends.one .refl hout
  | disconnected attempts => exact absurd rfl (hlink attempts)
  | idle =>
    cases hs
    exact Sends.one (b := false) .refl (lockClients_still (p := fun _ => False).toKept.sends fun _ h => h.elim) hout

/-- A frame of the radio ends a request that was in flight. -/
theorem ended_replied {v : ClientId → UInt8} (ht : Told v .any c) (hs : c.step frontend e = .ok c₁)
    (h : .ended q (.replied code) ∈ c₁.out) :
    ∃ env frame f, e = .radio env frame ∧ frame.head? = some code ∧ c.inFlight = some f ∧ f.request = q := by
  have hemits : (e.scope (c.begin frontend)).Emits (.ended q (.replied code)) := step_echoing ht hs _ h
  cases hemits with
  | logs h =>
    cases h with
    | ended h =>
      obtain ⟨f, frame, hdone, hrequest, hframe, hcode, -⟩ := h
      cases e with
      | radio env payload => exact ⟨env, payload, f, rfl, hframe ▸ hcode, hdone, hrequest⟩
      | command | timeoutTick | maintenanceTick | disconnected | idle => exact hdone.elim

/-- Between the sending of a request and its end nothing else is sent. -/
theorem nothing_between {h₀ h₁ h₂ : List Effect} {how : Ending}
    (ha : Accounted False (h₀ ++ .radio q :: h₁ ++ .ended q how :: h₂) c) : sentToRadio h₁ = [] := by
  refine sentToRadio_eq_nil fun r hr => ?_
  obtain ⟨h₁, h₁', rfl⟩ := List.append_of_mem hr
  have hsplit : h₀ ++ .radio q :: (h₁ ++ .radio r :: h₁') ++ .ended q how :: h₂ =
      (h₀ ++ .radio q :: h₁) ++ .radio r :: (h₁' ++ .ended q how :: h₂) := by simp
  rw [hsplit] at ha
  have hterminated := ha.terminated_before q (mem_sentToRadio.mpr (by simp))
  obtain ⟨e, he, hended⟩ := List.mem_filterMap.mp hterminated
  obtain ⟨how', rfl⟩ : ∃ how', e = .ended q how' := by
    split at hended <;> cases hended <;> exact ⟨_, rfl⟩
  have hone := (ha.outcome (ha.handed_of_ended (List.mem_append_left _ he))).place
  have hfirst := List.length_pos_of_mem (mem_endings.mpr he)
  simp only [endings_append] at hone hfirst
  have hlast := List.length_pos_of_mem (mem_endings.mpr (show .ended q how ∈ h₁' ++ .ended q how :: h₂ by simp))
  rw [show (Effect.radio r :: (h₁' ++ .ended q how :: h₂)) = [.radio r] ++ (h₁' ++ .ended q how :: h₂) from rfl,
    endings_append] at hone
  simp only [List.length_append] at hone hfirst
  omega

end

/-! ### Rejected commands -/

/-- The frame that is served for a contact, if it is cached. -/
def servedContact (contacts : Table Bytes ContactRow) (key : Bytes) : Option Bytes :=
  (contacts.lookup key).map fun r => (contactFrame r.contact).bytes

namespace Lap

/-- The contacts that a turn caches from the frame it handles. -/
def contactsHeard (s : Lap) : List (Change Bytes ContactRow) :=
  match s.event with
  | .radio env frame => contactPut env frame
  | _ => []

/-- The cached contacts once the turn has handled its frame, and before it sends a request. -/
def contactsThen (s : Lap) : Table Bytes ContactRow := Change.replay s.contactsHeard s.before.db.contacts

/-- The turn caches a frame of the contact. -/
def Hears (s : Lap) (key : Bytes) : Prop := ∃ ch ∈ s.contactsHeard, ch.Puts key

/-- The maintenance of the turn sweeps the contact. -/
def Sweeps (s : Lap) (key : Bytes) : Prop :=
  ∃ env threshold row, s.event = .maintenanceTick env ∧ s.before.contactsCut env = some threshold ∧
    s.before.db.contacts.lookup key = some row ∧ row.seenAt.getD 0 < threshold

end Lap

/-- A request that the turn sends takes the contact out of the cache. -/
def Lap.Removes (s : Lap) (q : Queued) (key : Bytes) : Prop :=
  q.payload.removedContact = some key ∧ s.event.ok .deleteContact = true ∧ s.contactsThen.lookup key ≠ none

section
variable {config : Config} {db : NodeState} {env : Env} {first : Attempt} {attempts : List Attempt} {c₀ c : Core}
  {l l₁ l₂ l₃ : List Lap} {s t : Lap} {q : Queued}

/-- What a turn takes out of the contacts, or sweeps. -/
def Lap.contactsLost (s : Lap) : List (Change Bytes ContactRow) :=
  ((sentToRadio s.after.out).flatMap fun q => q.payload.contactTake s.event.ok) ++
    match s.event with
    | .maintenanceTick env => s.before.contactSweep env
    | _ => []

theorem Lap.contactChanges_eq : s.contactChanges = s.contactsHeard ++ s.contactsLost := by
  unfold Lap.contactChanges Lap.contactsHeard Lap.contactsLost
  cases s.event <;> simp

theorem contactPut_puts {frame : Bytes} : ∀ ch ∈ contactPut env frame, ch.isPut = true := by
  unfold contactPut
  split
  · split <;> simp [Change.isPut]
  · simp

theorem Lap.contactsHeard_puts : ∀ ch ∈ s.contactsHeard, ch.isPut = true := by
  unfold Lap.contactsHeard
  cases s.event with
  | radio => exact contactPut_puts
  | command | timeoutTick | maintenanceTick | disconnected | idle => exact List.forall_mem_nil _

theorem Lap.contactsLost_puts : ∀ ch ∈ s.contactsLost, ch.isPut = false := by
  intro ch hch
  rcases List.mem_append.mp hch with hch | hch
  · obtain ⟨q, -, hch⟩ := List.mem_flatMap.mp hch
    unfold Command.contactTake at hch
    split at hch
    · obtain ⟨key, -, rfl⟩ := List.mem_map.mp hch
      rfl
    · cases hch
  · cases he : s.event with
    | maintenanceTick env =>
      rw [he] at hch
      obtain ⟨threshold, -, rfl⟩ := List.mem_map.mp hch
      rfl
    | command | radio | timeoutTick | disconnected | idle =>
      rw [he] at hch
      cases hch

theorem Lap.filter_isPut : s.contactChanges.filter Change.isPut = s.contactsHeard := by
  rw [Lap.contactChanges_eq, List.filter_append, List.filter_eq_self.mpr Lap.contactsHeard_puts,
    List.filter_eq_nil_iff.mpr fun ch hch => by simp [Lap.contactsLost_puts ch hch], List.append_nil]

theorem Lap.hears_iff {key : Bytes} : s.Hears key ↔ ∃ ch ∈ s.contactChanges, ch.Puts key := by
  rw [Lap.Hears, ← Lap.filter_isPut]
  constructor
  · rintro ⟨ch, hch, hputs⟩
    exact ⟨ch, (List.mem_filter.mp hch).1, hputs⟩
  · rintro ⟨ch, hch, hputs⟩
    exact ⟨ch, List.mem_filter.mpr ⟨hch, Change.Puts.isPut hputs⟩, hputs⟩

/-- A contact is lost in a turn to a request that the turn sends, or to its maintenance. -/
theorem Lap.loses_iff {key : Bytes} : Change.Loses key s.contactsLost s.contactsThen ↔
    (∃ q ∈ sentToRadio s.after.out, s.Removes q key) ∨ s.Sweeps key := by
  rw [Change.loses_iff_of_no_puts Lap.contactsLost_puts]
  constructor
  · rintro ⟨row, hrow, ch, hch, hdrops⟩
    rcases List.mem_append.mp hch with hch | hch
    · obtain ⟨q, hq, hch⟩ := List.mem_flatMap.mp hch
      unfold Command.contactTake at hch
      split at hch
      · rename_i hok
        obtain ⟨key', hkey, rfl⟩ := List.mem_map.mp hch
        obtain rfl : key = key' := hdrops
        exact Or.inl ⟨q, hq, Option.mem_toList.mp hkey, hok, by rw [hrow]; exact nofun⟩
      · cases hch
    · cases he : s.event with
      | maintenanceTick env =>
        rw [he] at hch
        obtain ⟨threshold, hcut, rfl⟩ := List.mem_map.mp hch
        have hbefore : s.contactsThen = s.before.db.contacts := by simp [Lap.contactsThen, Lap.contactsHeard, he]
        exact Or.inr ⟨env, threshold, row, he, Option.mem_toList.mp hcut, hbefore ▸ hrow,
          by simpa [Change.Drops] using hdrops⟩
      | command | radio | timeoutTick | disconnected | idle =>
        rw [he] at hch
        cases hch
  · rintro (⟨q, hq, hremoved, hok, hcached⟩ | ⟨env, threshold, row, he, hcut, hrow, hold⟩)
    · obtain ⟨row, hrow⟩ := Option.ne_none_iff_exists'.mp hcached
      refine ⟨row, hrow, .take key, List.mem_append_left _ (List.mem_flatMap.mpr ⟨q, hq, ?_⟩), rfl⟩
      simp [Command.contactTake, hok, hremoved]
    · have hbefore : s.contactsThen = s.before.db.contacts := by simp [Lap.contactsThen, Lap.contactsHeard, he]
      refine ⟨row, hbefore ▸ hrow, .sweep fun _ r => !decide (r.seenAt.getD 0 < threshold),
        List.mem_append_right _ ?_, ?_⟩
      · simp [he, contactSweep, hcut]
      · simp [Change.Drops, hold]

/-- In a turn that sends nothing contacts are only lost to maintenance. -/
theorem Lap.loses_unsent {key : Bytes} (hsent : sentToRadio s.after.out = []) :
    Change.Loses key s.contactChanges s.before.db.contacts ↔ s.Sweeps key := by
  rw [Lap.contactChanges_eq, Change.loses_append,
    or_iff_left fun h => Change.not_loses_of_puts Lap.contactsHeard_puts h.1]
  refine Lap.loses_iff.trans (or_iff_right ?_)
  rintro ⟨q, hq, -⟩
  rw [hsent] at hq
  cases hq

/-- The same over turns that send nothing: what is swept in one of them and not heard again. -/
theorem Trace.loses_unsent {h : List Effect} {key : Bytes} (ha : Accounted False h c₀) (ht : Trace c₀ l c)
    (hsent : sentToRadio (history l) = []) : Change.Loses key (l.flatMap Lap.contactChanges) c₀.db.contacts ↔
      ∃ l₁ s l₂, l = l₁ ++ s :: l₂ ∧ s.Sweeps key ∧ ∀ u ∈ l₂, ¬u.Hears key := by
  induction ht generalizing h with
  | nil =>
    refine ⟨?_, ?_⟩
    · rintro ⟨_, _, _, _, heq, -⟩
      simp at heq
    · rintro ⟨_, _, _, heq, -⟩
      simp at heq
  | @cons c c₁ c₂ frontend e l hs _ ih =>
    rw [history_cons, sentToRadio_append] at hsent
    obtain ⟨hsent₁, hsent⟩ := List.append_eq_nil_iff.mp hsent
    have hstep := (handle_ledger hs ha.begin False.elim False.elim).1
    rw [List.flatMap_cons, Change.loses_append, ← (step_journals ha.valid hs).1, ih hstep hsent,
      Lap.loses_unsent hsent₁]
    constructor
    · rintro (⟨l₁, s, l₂, rfl, hsweeps, hl₂⟩ | ⟨hsweeps, hno⟩)
      · exact ⟨_ :: l₁, s, l₂, rfl, hsweeps, hl₂⟩
      · refine ⟨[], _, l, rfl, hsweeps, fun u hu hhears => ?_⟩
        obtain ⟨ch, hch, hputs⟩ := Lap.hears_iff.mp hhears
        exact hno ch (List.mem_flatMap.mpr ⟨u, hu, hch⟩) hputs
    · rintro ⟨l₁, s, l₂, heq, hsweeps, hl₂⟩
      rcases List.cons_eq_append_iff.mp heq with ⟨rfl, heq⟩ | ⟨l₁, rfl, rfl⟩
      · obtain ⟨rfl, rfl⟩ := List.cons.inj heq
        refine Or.inr ⟨hsweeps, fun ch hch hputs => ?_⟩
        obtain ⟨u, hu, hch⟩ := List.mem_flatMap.mp hch
        exact hl₂ u hu (Lap.hears_iff.mpr ⟨ch, hch, hputs⟩)
      · exact Or.inl ⟨l₁, s, l₂, rfl, hsweeps, hl₂⟩

theorem servedContact_replay (contacts : Table Bytes ContactRow) (j : List (Change Bytes ContactRow)) :
    (∀ key, servedContact (Change.replay j contacts) key =
      servedContact (Change.replay (j.filter Change.isPut) contacts) key) ↔
      ∀ key, ¬Change.Loses key j contacts := by
  refine forall_congr' fun key => ?_
  rcases Change.lookup_replay_puts (j := j) (t := contacts) (k := key) with ⟨hloses, hnone, hsome⟩ | ⟨hkept, heq⟩
  · refine iff_of_false (fun h => ?_) (not_not_intro hloses)
    rw [servedContact, servedContact, hnone, Option.map_none] at h
    exact hsome (Option.map_eq_none_iff.mp h.symm)
  · exact iff_of_true (by rw [servedContact, servedContact, heq]) hkept

theorem Trace.accounted (hstart : (Core.new config db).start env first attempts = .ok c₀) (ht : Trace c₀ l c) :
    Accounted False (c₀.out ++ history l) c :=
  ((Trace.reachable hstart ht).accounted False.elim fun _ _ _ => False.elim).1

/-- A turn sends what the sync asks for, or one request at most; and none when one fails to be sent. -/
theorem Lap.sent_cases (hvalid : s.before.clients.Valid) (hs : s.before.step s.frontend s.event = .ok s.after) :
    (∀ r ∈ sentToRadio s.after.out, IsSync r) ∨ (sentToRadio s.after.out).length ≤ 1 ∧
      ((∃ q, .ended q .sendFailed ∈ s.after.out) → sentToRadio s.after.out = []) := by
  by_cases hlink : ∃ attempts, s.event = .disconnected attempts
  · obtain ⟨attempts, he⟩ := hlink
    rw [he] at hs
    obtain ⟨sent, hj, hsync⟩ := reconnectRadio_syncs hs
    obtain ⟨es, hout, hes⟩ := hj.out
    rw [hout]
    exact Or.inl (hes.symm ▸ hsync)
  · exact Or.inr (handle_sends hs ⟨hvalid.born, hvalid.nodup⟩ rfl fun attempts he => hlink ⟨attempts, he⟩)

theorem IsSync.removes_nothing {key : Bytes} (h : IsSync q) : ¬s.Removes q key := by
  rintro ⟨hremoved, -⟩
  rcases h.2 with hcode | hcode <;> simp [Command.removedContact, hcode] at hremoved

/-- A turn that sends the request removes nothing else. -/
theorem Lap.removes_of_sent {key : Bytes} (hvalid : s.before.clients.Valid)
    (hs : s.before.step s.frontend s.event = .ok s.after) (hsent : .radio q ∈ s.after.out) :
    (∃ r ∈ sentToRadio s.after.out, s.Removes r key) ↔ s.Removes q key := by
  refine ⟨?_, fun h => ⟨q, mem_sentToRadio.mpr hsent, h⟩⟩
  rintro ⟨r, hr, hremoves⟩
  rcases Lap.sent_cases hvalid hs with hsync | ⟨hone, -⟩
  · exact absurd hremoves (hsync r hr).removes_nothing
  · obtain ⟨r', hr'⟩ := List.length_eq_one_iff.mp (Nat.le_antisymm hone (List.length_pos_of_mem hr))
    have hq := mem_sentToRadio.mpr hsent
    rw [hr'] at hr hq
    rwa [List.mem_singleton.mp hq, ← List.mem_singleton.mp hr]

/-- While a request that the radio rejects is in flight, the cache changes by CONTACT frames alone, exactly when every
    contact is heard again that the request removes as it is sent, or that maintenance sweeps meanwhile. -/
theorem rejected_keeps_contacts (hstart : (Core.new config db).start env first attempts = .ok c₀)
    (ht : Trace c₀ (l₁ ++ s :: (l₂ ++ t :: l₃)) c) (hsent : .radio q ∈ s.after.out)
    (hrejected : .ended q (.replied 0x01) ∈ t.after.out) :
    (∀ key, servedContact t.contactsThen key =
      servedContact (Change.replay (l₂.flatMap Lap.contactsHeard) s.contactsThen) key) ↔
      (∀ key, s.Removes q key → ∃ u ∈ l₂, u.Hears key) ∧
      ∀ m₁ u m₂, s :: l₂ = m₁ ++ u :: m₂ → ∀ key, u.Sweeps key → ∃ u' ∈ m₂, u'.Hears key := by
  have hall := Trace.accounted hstart ht
  obtain ⟨hbefore, hs, hafter⟩ := ht.split
  obtain ⟨hbetween, hst, -⟩ := hafter.split
  have ha := Trace.accounted hstart hbefore
  have ha₁ : Accounted False (c₀.out ++ history l₁ ++ s.after.out) s.after :=
    (handle_ledger hs ha.begin False.elim False.elim).1
  have hreach : Reachable (c₀.out ++ history (l₁ ++ s :: l₂)) t.before :=
    Trace.reachable hstart (hbefore.append (.cons hs hbetween))
  have hnone : sentToRadio (history l₂) = [] := by
    obtain ⟨a, b, hab⟩ := List.append_of_mem hsent
    obtain ⟨a', b', hab'⟩ := List.append_of_mem hrejected
    have hsplit : c₀.out ++ history (l₁ ++ s :: (l₂ ++ t :: l₃)) = (c₀.out ++ history l₁ ++ a) ++ .radio q ::
        (b ++ (history l₂ ++ a')) ++ .ended q (.replied 0x01) :: (b' ++ history l₃) := by
      simp [hab, hab']
    rw [hsplit] at hall
    have hnil := nothing_between hall
    simp only [sentToRadio, List.filterMap_append, List.append_eq_nil_iff] at hnil
    exact hnil.2.1
  obtain ⟨env', frame, -, he, hcode, -⟩ := ended_replied hreach.told hst hrejected
  have hthen : t.contactsThen = Change.replay (s.contactsLost ++ l₂.flatMap Lap.contactChanges) s.contactsThen := by
    have hheard : t.contactsHeard = [] := by simp [Lap.contactsHeard, he, contactPut, hcode]
    rw [Lap.contactsThen, hheard, Change.replay_nil, (Trace.journals ha₁ hbetween).1, (step_journals ha.valid hs).1,
      Lap.contactChanges_eq, Change.replay_append, Change.replay_append]
    rfl
  have hputs : (s.contactsLost ++ l₂.flatMap Lap.contactChanges).filter Change.isPut =
      l₂.flatMap Lap.contactsHeard := by
    rw [List.filter_append, List.filter_eq_nil_iff.mpr fun ch hch => by simp [Lap.contactsLost_puts ch hch],
      List.nil_append, List.filter_flatMap]
    exact List.flatMap_congr fun u _ => Lap.filter_isPut
  have hsafter : Change.replay s.contactsLost s.contactsThen = s.after.db.contacts := by
    rw [(step_journals ha.valid hs).1, Lap.contactChanges_eq, Change.replay_append]
    rfl
  have hheard (key : Bytes) : (∀ ch ∈ l₂.flatMap Lap.contactChanges, ¬ch.Puts key) ↔ ¬∃ u ∈ l₂, u.Hears key := by
    constructor
    · rintro hno ⟨u, hu, hhears⟩
      obtain ⟨ch, hch, hputs⟩ := Lap.hears_iff.mp hhears
      exact hno ch (List.mem_flatMap.mpr ⟨u, hu, hch⟩) hputs
    · intro hno ch hch hputs
      obtain ⟨u, hu, hch⟩ := List.mem_flatMap.mp hch
      exact hno ⟨u, hu, Lap.hears_iff.mpr ⟨ch, hch, hputs⟩⟩
  have hloses (key : Bytes) : Change.Loses key (s.contactsLost ++ l₂.flatMap Lap.contactChanges) s.contactsThen ↔
      (∃ m₁ u m₂, l₂ = m₁ ++ u :: m₂ ∧ u.Sweeps key ∧ ∀ u' ∈ m₂, ¬u'.Hears key) ∨
        (s.Removes q key ∨ s.Sweeps key) ∧ ¬∃ u ∈ l₂, u.Hears key := by
    rw [Change.loses_append, hsafter, Trace.loses_unsent ha₁ hbetween hnone, hheard, Lap.loses_iff,
      Lap.removes_of_sent ha.valid hs hsent]
  rw [hthen, ← hputs, servedContact_replay]
  constructor
  · intro hkept
    refine ⟨fun key hremoves => ?_, fun m₁ u m₂ heq key hsweeps => ?_⟩
    · by_contra hno
      exact hkept key ((hloses key).mpr (Or.inr ⟨Or.inl hremoves, hno⟩))
    · by_contra hno
      rcases List.cons_eq_append_iff.mp heq with ⟨rfl, heq⟩ | ⟨m₁, rfl, rfl⟩
      · obtain ⟨rfl, rfl⟩ := List.cons.inj heq
        exact hkept key ((hloses key).mpr (Or.inr ⟨Or.inr hsweeps, hno⟩))
      · exact hkept key
          ((hloses key).mpr (Or.inl ⟨m₁, u, m₂, rfl, hsweeps, fun u' hu' hhears => hno ⟨u', hu', hhears⟩⟩))
  · rintro ⟨hremoved, hswept⟩ key hlost
    rcases (hloses key).mp hlost with ⟨m₁, u, m₂, rfl, hsweeps, hno⟩ | ⟨hremoves | hsweeps, hno⟩
    · obtain ⟨u', hu', hhears⟩ := hswept (s :: m₁) u m₂ rfl key hsweeps
      exact hno u' hu' hhears
    · exact hno (hremoved key hremoves)
    · exact hno (hswept [] s l₂ rfl key hsweeps)

/-- A turn in which a request cannot be sent changes the cached contacts by its frame and by its maintenance alone. -/
theorem failed_keeps_contacts {h : List Effect} (ha : Accounted False h s.before)
    (hs : s.before.step s.frontend s.event = .ok s.after) (hfailed : .ended q .sendFailed ∈ s.after.out) :
    (∀ key, servedContact s.after.db.contacts key = servedContact s.contactsThen key) ↔ ∀ key, ¬s.Sweeps key := by
  have hsafter : s.after.db.contacts = Change.replay s.contactsLost s.contactsThen := by
    rw [(step_journals ha.valid hs).1, Lap.contactChanges_eq, Change.replay_append]
    rfl
  have hputs : s.contactsLost.filter Change.isPut = [] :=
    List.filter_eq_nil_iff.mpr fun ch hch => by simp [Lap.contactsLost_puts ch hch]
  have hkept := servedContact_replay s.contactsThen s.contactsLost
  rw [hputs, Change.replay_nil, ← hsafter] at hkept
  rw [hkept]
  refine forall_congr' fun key => not_congr (Lap.loses_iff.trans (or_iff_right ?_))
  rintro ⟨r, hr, hremoves⟩
  rcases Lap.sent_cases ha.valid hs with hsync | ⟨-, hnone⟩
  · exact (hsync r hr).removes_nothing hremoves
  · rw [hnone ⟨q, hfailed⟩] at hr
    cases hr

/-- A command that is answered with an ERROR, by the radio or because it cannot be sent, leaves the cached contacts as
    they were, CONTACT frames apart, exactly when every contact is heard again that it removes as it is sent, or that
    maintenance sweeps meanwhile. -/
theorem error_keeps_contacts (hstart : (Core.new config db).start env first attempts = .ok c₀) (ht : Trace c₀ l c) :
    (∀ l₁ s l₂ t l₃ q, l = l₁ ++ s :: (l₂ ++ t :: l₃) → .radio q ∈ s.after.out →
      .ended q (.replied 0x01) ∈ t.after.out →
      ((∀ key, servedContact t.contactsThen key =
        servedContact (Change.replay (l₂.flatMap Lap.contactsHeard) s.contactsThen) key) ↔
        (∀ key, s.Removes q key → ∃ u ∈ l₂, u.Hears key) ∧
        ∀ m₁ u m₂, s :: l₂ = m₁ ++ u :: m₂ → ∀ key, u.Sweeps key → ∃ u' ∈ m₂, u'.Hears key)) ∧
    ∀ s ∈ l, ∀ q, .ended q .sendFailed ∈ s.after.out →
      ((∀ key, servedContact s.after.db.contacts key = servedContact s.contactsThen key) ↔ ∀ key, ¬s.Sweeps key) := by
  refine ⟨?_, fun s hs q hfailed => ?_⟩
  · rintro l₁ s l₂ t l₃ q rfl hsent hrejected
    exact rejected_keeps_contacts hstart ht hsent hrejected
  · obtain ⟨l₁, l₂, rfl⟩ := List.append_of_mem hs
    obtain ⟨hbefore, hstep, -⟩ := ht.split
    exact failed_keeps_contacts (Trace.accounted hstart hbefore) hstep hfailed

/-- A proxy on an empty database, whose radio has one channel. -/
def fresh : Except Panic Core := (Core.new ⟨.off, true, false, ⟨0, 0, 0, 0⟩, .off⟩ .empty).start sound
  ⟨true, [.frame [0x05], .frame [0x0D, 9, 1, 1]], sound, sound, sound⟩ []

/-- A contact of the radio. -/
def sevens : Bytes := 0x03 :: List.replicate 147 7

/-- The radio has the contact, and no channel. -/
def filled : List Turn :=
  [([], .radio sound sevens), ([], .radio sound [0x04, 0, 0, 0, 0]), ([], .radio sound [0x01, 2])]

theorem sevens_put : ∃ row, contactPut sound sevens = [.put (List.replicate 32 7) row] := by
  have hwhole : sevens.head? = some 0x03 ∧ contactFrameLen ≤ sevens.length := by decide +kernel
  have hkey : (contactOf sevens hwhole.2).publicKey = List.replicate 32 7 := rfl
  have hok : sound.dbOk .upsertContact = true := rfl
  rw [contactPut, dif_pos hwhole, if_pos hok, hkey]
  exact ⟨_, rfl⟩

def removal : Command := .mk' 0x0F (List.replicate 32 7)

theorem error_keeps_contacts_reheard_run : Except.Holds (do
    let c₀ ← fresh
    let (l, c₁) ← c₀.laps filled
    let c₂ ← c₁.step [[.connect]] (.command sound ⟨1, 5000, removal.bytes⟩)
    let c₃ ← c₂.step [] (.radio sound sevens)
    let c₄ ← c₃.step [] (.radio sound [0x01, 2])
    return (c₀, l, c₁, c₂, c₃, c₄)) fun (_, _, c₁, c₂, c₃, c₄) =>
      (.radio ⟨some 1, removal, 2⟩ ∈ c₂.out ∧ .ended ⟨some 1, removal, 2⟩ (.replied 0x01) ∈ c₄.out) ∧
      servedContact c₁.db.contacts (List.replicate 32 7) = some sevens ∧
      servedContact c₂.db.contacts (List.replicate 32 7) = none ∧
      servedContact c₃.db.contacts (List.replicate 32 7) = some sevens := by
  decide +kernel

/-- The removal of a contact is refused, but the contact was heard again by then. -/
theorem error_keeps_contacts_reheard : ∃ c₀ l₁ s u t c q key, fresh = .ok c₀ ∧ Trace c₀ (l₁ ++ [s, u, t]) c ∧
    .radio q ∈ s.after.out ∧ .ended q (.replied 0x01) ∈ t.after.out ∧
    (servedContact s.before.db.contacts key = some sevens ∧ servedContact s.after.db.contacts key = none ∧
      servedContact u.after.db.contacts key = some sevens) ∧
    ∀ key, servedContact t.contactsThen key = servedContact (Change.replay u.contactsHeard s.contactsThen) key := by
  obtain ⟨⟨c₀, l, c₁, c₂, c₃, c₄⟩, hrun, ⟨hsent, hended⟩, hserved⟩ := error_keeps_contacts_reheard_run
  obtain ⟨_, hboot, hrun⟩ := Except.of_bind_eq_ok hrun
  obtain ⟨⟨_, _⟩, hlaps, hrun⟩ := Except.of_bind_eq_ok hrun
  obtain ⟨_, hstep₂, hrun⟩ := Except.of_bind_eq_ok hrun
  obtain ⟨_, hstep₃, hrun⟩ := Except.of_bind_eq_ok hrun
  obtain ⟨_, hstep₄, hrun⟩ := Except.of_bind_eq_ok hrun
  cases hrun
  have hall := (Trace.of_laps hlaps).1.append (.cons hstep₂ (.cons hstep₃ (.cons hstep₄ (.nil c₄))))
  obtain ⟨row, hheard⟩ := sevens_put
  refine ⟨c₀, l, _, ⟨c₂, [], .radio sound sevens, c₃⟩, _, c₄, _, List.replicate 32 7, hboot, hall, hsent,
    hended, hserved, ?_⟩
  have hkept :=
    ((error_keeps_contacts hboot hall).1 l _ [⟨c₂, [], .radio sound sevens, c₃⟩] _ [] _ rfl hsent hended).mpr
    ⟨fun key hremoves => ?_, ?_⟩
  · simpa using hkept
  · obtain rfl : List.replicate 32 7 = key := Option.some.inj hremoves.1
    exact ⟨_, List.mem_singleton_self _, _, List.mem_of_mem_head? (congrArg List.head? hheard), rfl⟩
  · rintro m₁ u m₂ heq key ⟨_, _, _, he, -⟩
    have hu : u ∈ m₁ ++ u :: m₂ := by simp
    rw [← heq, List.mem_cons, List.mem_singleton] at hu
    rcases hu with rfl | rfl <;> cases he

theorem refused_removal_forgets_run : Except.Holds (do
    let c₀ ← fresh
    let (l, c₁) ← c₀.laps filled
    let c₂ ← c₁.step [[.connect]] (.command sound ⟨1, 5000, removal.bytes⟩)
    let c₃ ← c₂.step [] (.radio sound [0x01, 2])
    return (c₀, l, c₁, c₂, c₃)) fun (_, _, c₁, c₂, c₃) =>
      .radio ⟨some 1, removal, 2⟩ ∈ c₂.out ∧ .ended ⟨some 1, removal, 2⟩ (.replied 0x01) ∈ c₃.out ∧
      .client 1 none 0 [0x01, 2] (.reply 2) ∈ c₃.out ∧
      servedContact c₁.db.contacts (List.replicate 32 7) = some sevens ∧
      servedContact c₂.db.contacts (List.replicate 32 7) = none := by
  decide +kernel

/-- A REMOVE_CONTACT that the radio refuses: the contact is gone from the cache. -/
theorem refused_removal_forgets : ∃ c₀ l₁ s t c q who version, fresh = .ok c₀ ∧ Trace c₀ (l₁ ++ [s, t]) c ∧
    .radio q ∈ s.after.out ∧
    .ended q (.replied 0x01) ∈ t.after.out ∧ .client 1 who version [0x01, 2] (.reply q.ticket) ∈ t.after.out ∧
    ¬∀ key, servedContact t.contactsThen key = servedContact (Change.replay [] s.contactsThen) key := by
  obtain ⟨⟨c₀, l, c₁, c₂, c₃⟩, hrun, hsent, hended, hclient, hbefore, hafter⟩ := refused_removal_forgets_run
  obtain ⟨_, hboot, hrun⟩ := Except.of_bind_eq_ok hrun
  obtain ⟨⟨_, _⟩, hlaps, hrun⟩ := Except.of_bind_eq_ok hrun
  obtain ⟨_, hstep₂, hrun⟩ := Except.of_bind_eq_ok hrun
  obtain ⟨_, hstep₃, hrun⟩ := Except.of_bind_eq_ok hrun
  cases hrun
  have hall := (Trace.of_laps hlaps).1.append (.cons hstep₂ (.cons hstep₃ (.nil c₃)))
  refine ⟨c₀, l, _, _, c₃, _, _, _, hboot, hall, hsent, hended, hclient, fun hkept => ?_⟩
  have hserved : none = some sevens := hafter.symm.trans ((hkept (List.replicate 32 7)).trans hbefore)
  cases hserved

end
end Core
end CoreSplitter
