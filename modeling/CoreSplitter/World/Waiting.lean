import CoreSplitter.Theorems.Acks
import CoreSplitter.World.Lockstep

/-! How long a request waits: those ahead of it go first, and on each the radio may be silent for a while only. -/

namespace CoreSplitter
open Bytes

namespace Core

/-- A frame that belongs to the request in flight and does not complete it gives the radio more time. -/
def Event.Prolongs (c : Core) (e : Event) : Prop :=
  ∃ env frame code f, e = .radio env frame ∧ frame.head? = some code ∧ c.inFlight = some f ∧
    f.awaiting.classify code = (true, false)

/-- When the tick came last. -/
def Event.tickedAt (last : Nat) : Event → Nat
  | .timeoutTick env => env.now
  | _ => last

/-- The tick, which came last at `last`, comes at least every `period` ms. -/
def Regular (period : Nat) : Nat → List Lap → Prop
  | _, [] => True
  | last, s :: l => (∀ n ∈ s.event.instant, last ≤ n ∧ n ≤ last + period) ∧ Regular period (s.event.tickedAt last) l

section
variable {orderly : Prop} {h : List Effect} {c c₁ c' : Core} {env : Env} {q : Queued} {t : Option Ticket} {f : InFlight}
  {frontend : List (List FrontendOp)} {e : Event} {laps : List Lap} {last period : Nat}

/-! ### The slot -/

/-- What is put in the slot was just sent. -/
theorem Moves.just_sent (hm : Moves orderly env t c c₁) (hfree : c.inFlight = none) :
    ∀ f, c₁.inFlight = some f → f.lastActivity = env.now := by
  induction hm with
  | refl =>
    intro f hf
    rw [hfree] at hf
    cases hf
  | @tail c₁ _ _ hm ih =>
    cases hm with
    | still h => exact fun f hf => ih f (h.slot ▸ hf)
    | relay h => exact fun f hf => ih f (h.slot ▸ hf)
    | submit | jump | drop => exact ih
    | start =>
      intro f hf
      cases hf
      rfl
    | @refuse q rest =>
      have hfailed : Still (IsErrorOf q) (c₁.popped rest) ((c₁.popped rest).failTo q) := failTo_still
      exact fun f hf => ih f (hfailed.slot ▸ hf)

/-- A turn leaves the request in flight alone, or ends it and sends the next one. -/
theorem step_slot (hs : c.step frontend e = .ok c₁) (hvalid : c.clients.Valid) (hslot : c.inFlight = some f)
    (hlink : ∀ attempts, e ≠ .disconnected attempts) (hno : ¬e.Prolongs c) :
    c₁.inFlight = some f ∧ e.Timely c ∨
      f.request ∈ terminated c₁.out ∧ ∃ n, e.instant = some n ∧ ∀ f', c₁.inFlight = some f' → f'.lastActivity = n := by
  have hslot : (c.begin frontend).inFlight = some f := hslot
  have hbusy : (c.begin frontend).inFlight ≠ none := by rw [hslot]; exact nofun
  have hs : (c.begin frontend).handle e = .ok c₁ := hs
  cases e with
  | command env cmd =>
    have hworks := handleClientCommand_works hs ⟨hvalid.born, hvalid.nodup⟩
    exact Or.inl ⟨(hworks.moves.slot hbusy).trans hslot, trivial⟩
  | radio env frame =>
    rcases handleRadioRx_routed hs with ⟨-, rfl⟩ | ⟨code, rest, c₂, rfl, hcache, hr⟩
    · exact Or.inl ⟨hslot, trivial⟩
    · have hcached : Kept (Effect.Side none) (c.begin frontend) (c₂.recordRaw env code (code :: rest)) :=
        (cacheResponse_kept hcache).trans recordRaw_still.toKept
      have hslot₂ := hcached.slot.trans hslot
      cases hr with
      | finish g hg hcode hm =>
        cases hslot₂.symm.trans hg
        have hs : (c.begin frontend).handleRadioRx env (code :: rest) = .ok c₁ := hs
        rcases handleRadioRx_terminated hs with ⟨-, hunfinished⟩ | ⟨g, _, es, hg, -, -, hout, hes⟩
        · exact absurd hcode (hunfinished f hslot code rfl)
        · cases hslot.symm.trans hg
          have hout : c₁.out = es := hout
          refine Or.inr ⟨by rw [hout, hes]; exact List.mem_singleton.mpr rfl, env.now, rfl, hm.just_sent rfl⟩
      | part g hg hcode heq =>
        cases hslot₂.symm.trans hg
        exact absurd ⟨env, code :: rest, code, f, rfl, rfl, hslot, hcode⟩ hno
      | other hcode hm =>
        have hbusy₂ : (c₂.recordRaw env code (code :: rest)).inFlight ≠ none := by rw [hslot₂]; exact nofun
        exact Or.inl ⟨(hm.slot hbusy₂).trans hslot₂, trivial⟩
  | timeoutTick env =>
    cases hs
    by_cases hlate : env.now - f.lastActivity ≥ inFlightTimeout
    · have hexpired : (c.begin frontend).checkInFlightTimeout env = ((c.begin frontend).expire f).advanceQueue env := by
        unfold checkInFlightTimeout
        rw [hslot]
        exact if_pos hlate
      have hfree : ((c.begin frontend).expire f).inFlight = none := failTo_still.slot
      have hm : Moves True env none ((c.begin frontend).expire f) (((c.begin frontend).expire f).advanceQueue env) :=
        advanceQueue_moves hfree
      obtain ⟨es, hout, -⟩ := hm.out
      have hended : .ended f.request .timedOut ∈ ((c.begin frontend).expire f).out :=
        List.mem_append_right _ (List.mem_singleton.mpr rfl)
      rw [hexpired]
      have hended : .ended f.request .timedOut ∈ (((c.begin frontend).expire f).advanceQueue env).out :=
        hout ▸ List.mem_append_left _ hended
      exact Or.inr ⟨List.mem_filterMap.mpr ⟨_, hended, rfl⟩, env.now, rfl, hm.just_sent hfree⟩
    · have hkeeps : (c.begin frontend).checkInFlightTimeout env = c.begin frontend := by
        unfold checkInFlightTimeout
        rw [hslot]
        exact if_neg hlate
      rw [hkeeps]
      refine Or.inl ⟨hslot, fun g hg => ?_⟩
      cases hslot.symm.trans hg
      exact Nat.lt_of_not_le hlate
  | maintenanceTick env =>
    cases hs
    have hm : Moves (c.begin frontend).Idle env none (c.begin frontend) ((c.begin frontend).resync env) :=
      resync_works.moves
    exact Or.inl ⟨(hm.slot hbusy).trans hslot, trivial⟩
  | disconnected attempts => exact absurd rfl (hlink attempts)
  | idle =>
    cases hs
    exact Or.inl ⟨hslot, trivial⟩

/-! ### The queue -/

theorem Drain.ends (hd : Drain c c') : ∃ es, c'.out = c.out ++ es ∧ ∀ q ∈ c.pendingQueue, .ended q .drained ∈ es := by
  induction hd with
  | done hqueue => exact ⟨[], (List.append_nil _).symm, by rw [hqueue]; exact List.forall_mem_nil _⟩
  | @lost c c' q rest hqueue _ ih =>
    have hfailed : Still (IsErrorOf q) (c.popped rest) ((c.popped rest).failTo q) := failTo_still
    obtain ⟨es₁, hout₁, -⟩ := hfailed.out
    obtain ⟨es₂, hout₂, hes₂⟩ := ih
    refine ⟨es₁ ++ .ended q .drained :: es₂, ?_, fun q' hq' => ?_⟩
    · rw [hout₂]
      show ((c.popped rest).failTo q).out ++ [.ended q .drained] ++ es₂ = _
      rw [hout₁]
      simp [popped]
    · rw [hqueue] at hq'
      rcases List.mem_cons.mp hq' with rfl | hq'
      · exact List.mem_append_right _ List.mem_cons_self
      · exact List.mem_append_right _ (List.mem_cons_of_mem _ (hes₂ q' (hfailed.queue ▸ hq')))

/-- The loss of the link ends all that was there. -/
theorem reconnectRadio_ends {attempts : List Attempt} (hs : c.reconnectRadio attempts = .ok c')
    (hq : q ∈ c.lane.present) : ∃ es, c'.out = c.out ++ es ∧ q ∈ Lane.left (laneEvents es) := by
  obtain ⟨hfree, hqueue⟩ := failAll_drain.done_free (unlinked_free (c := c))
  obtain ⟨es₁, hout₁, hes₁⟩ := unlinked_terminated (c := c)
  obtain ⟨es₂, hout₂, hes₂⟩ := (failAll_drain (c := c)).ends
  obtain ⟨es₃, hout₃, -⟩ := reconnectLoop_emitted (b := false) hs hfree hqueue nofun
  refine ⟨es₁ ++ es₂ ++ es₃, by rw [hout₃, hout₂, hout₁, List.append_assoc, List.append_assoc, List.append_assoc], ?_⟩
  rw [laneEvents_append, laneEvents_append, Lane.left_append, Lane.left_append]
  refine List.mem_append_left _ ?_
  rcases List.mem_append.mp hq with hq | hq
  · have hqueue : c.unlinked.pendingQueue = c.pendingQueue := by
      unfold unlinked
      dsimp only
      split
      · exact failTo_still.queue
      · rfl
    exact List.mem_append_right _ (left_of_ended (hes₂ q (hqueue ▸ hq)))
  · refine List.mem_append_left _ (Lane.mem_left.mpr (Or.inr ?_))
    rw [finished_laneEvents, hes₁]
    exact hq

/-- Between two states of a queue that no request overtakes. -/
theorem Accounted.between {es : List Effect} (ha : Accounted True h c) (ha' : Accounted True (h ++ es) c') :
    Lane.Run True c.lane (laneEvents es) c'.lane := by
  have hlane := ha'.lane
  rw [laneEvents_append] at hlane
  obtain ⟨l, hbefore, hafter⟩ := hlane.split
  exact hbefore.unique ha.lane ▸ hafter

/-- As long as a request stays, each turn leaves it less time. -/
theorem step_waits (ha : Accounted True h c) (ha' : Accounted True (h ++ c₁.out) c₁) (hidle : c₁.Idle)
    (hs : c.step frontend e = .ok c₁) (hq : q ∈ c.lane.present) (hstays : q ∉ Lane.left (laneEvents c₁.out))
    (hslot : c.inFlight = some f) (hno : ¬e.Prolongs c) (hlast : last < f.lastActivity + inFlightTimeout)
    (hregular : ∀ n ∈ e.instant, last ≤ n ∧ n ≤ last + period) :
    q ∈ c₁.lane.present ∧ ∃ f', c₁.inFlight = some f' ∧ e.tickedAt last < f'.lastActivity + inFlightTimeout ∧
      f'.lastActivity + (c₁.lane.ahead q + 1) * (inFlightTimeout + period) ≤
        f.lastActivity + (c.lane.ahead q + 1) * (inFlightTimeout + period) := by
  obtain ⟨hq₁, hle⟩ := (ha.between ha').ahead_le hq hstays
  have hlink : ∀ attempts, e ≠ .disconnected attempts := by
    rintro attempts rfl
    obtain ⟨es, hout, hleft⟩ := reconnectRadio_ends hs hq
    have hout : c₁.out = es := hout
    exact hstays (hout ▸ hleft)
  refine ⟨hq₁, ?_⟩
  rcases step_slot hs ha.valid hslot hlink hno with ⟨hslot₁, htimely⟩ | ⟨hended, n, hn, hsent⟩
  · refine ⟨f, hslot₁, ?_, Nat.add_le_add_left (Nat.mul_le_mul_right _ (by omega)) _⟩
    cases e with
    | timeoutTick env =>
      have hearly : env.now - f.lastActivity < inFlightTimeout := htimely f hslot
      show env.now < _
      omega
    | _ => exact hlast
  · obtain ⟨f', hf'⟩ : ∃ f', c₁.inFlight = some f' := by
      refine Option.ne_none_iff_exists'.mp fun hnone => ?_
      have hempty : c₁.lane.present = [] := by simp [lane, Lane.present, hidle hnone, hnone]
      rw [hempty] at hq₁
      exact List.not_mem_nil hq₁
    obtain ⟨hafter, hsoon⟩ := hregular n hn
    have hactivity : f'.lastActivity = n := hsent f' hf'
    have hticked : e.tickedAt last ≤ n := by
      cases e with
      | timeoutTick env => exact Nat.le_of_eq (Option.some.inj hn)
      | _ => exact hafter
    have hone : 0 < (Lane.finished (laneEvents c₁.out)).length := by
      rw [finished_laneEvents]
      exact List.length_pos_of_mem hended
    refine ⟨f', hf', by rw [hactivity, inFlightTimeout]; omega, ?_⟩
    calc f'.lastActivity + (c₁.lane.ahead q + 1) * (inFlightTimeout + period)
      _ ≤ n + c.lane.ahead q * (inFlightTimeout + period) :=
        Nat.add_le_add (Nat.le_of_eq hactivity) (Nat.mul_le_mul_right _ (by omega))
      _ ≤ f.lastActivity + (inFlightTimeout + period) + c.lane.ahead q * (inFlightTimeout + period) :=
      Nat.add_le_add_right (by omega) _
      _ = f.lastActivity + (c.lane.ahead q + 1) * (inFlightTimeout + period) := by rw [Nat.add_one_mul]; omega

/-- A request that stays does so for a bounded time. -/
theorem Trace.waits (htrace : Trace c laps c') (ha : Accounted True h c) (hidle : c.Idle)
    (hopen : ∀ s ∈ laps, s.event.SyncOpen) (hq : q ∈ c.lane.present)
    (hstays : q ∉ Lane.left (laneEvents (history laps))) (hslot : c.inFlight = some f)
    (hno : ∀ s ∈ laps, ¬s.event.Prolongs s.before) (hlast : last < f.lastActivity + inFlightTimeout)
    (hregular : Regular period last laps) :
    ∀ s ∈ laps, ∀ n ∈ s.event.instant, n < f.lastActivity + (c.lane.ahead q + 1) * (inFlightTimeout + period) := by
  induction htrace generalizing h f last with
  | nil => exact List.forall_mem_nil _
  | @cons c c₁ c₂ frontend e l hs htrace ih =>
    obtain ⟨hregular₁, hregular⟩ := hregular
    have hstep : Accounted True (h ++ c₁.out) c₁ ∧ (True → c₁.Idle) :=
      handle_ledger hs ha.begin (fun _ : True => hidle) fun _ => hopen _ List.mem_cons_self
    rw [history_cons, laneEvents_append, Lane.left_append, List.mem_append, not_or] at hstays
    obtain ⟨hq₁, f₁, hslot₁, hlast₁, hle⟩ :=
      step_waits ha hstep.1 (hstep.2 trivial) hs hq hstays.1 hslot (hno _ List.mem_cons_self) hlast hregular₁
    have hrest := ih hstep.1 (hstep.2 trivial) (fun s hs => hopen s (List.mem_cons_of_mem _ hs)) hq₁ hstays.2 hslot₁
      (fun s hs => hno s (List.mem_cons_of_mem _ hs)) hlast₁ hregular
    intro s hs n hn
    rcases List.mem_cons.mp hs with rfl | hs
    · have hsoon := (hregular₁ n hn).2
      have hleast : inFlightTimeout + period ≤ (c.lane.ahead q + 1) * (inFlightTimeout + period) :=
        Nat.le_mul_of_pos_left _ (Nat.succ_pos _)
      omega
    · exact Nat.lt_of_lt_of_le (hrest s hs n hn) hle

/-- A request ends in time: once the radio had `inFlightTimeout` and a tick's `period` for each request ahead of it
    and for itself, no matter how silent it is, or what the clients do, unless it prolongs a stream. -/
theorem ends_in_time (hr : ReachableWith (fun a => a.syncEnv.writerOpen = true) (fun _ _ e => e.SyncOpen) h c)
    (htrace : Trace c laps c') (hopen : ∀ s ∈ laps, s.event.SyncOpen) (hq : q ∈ c.lane.present)
    (hslot : c.inFlight = some f) (hno : ∀ s ∈ laps, ¬s.event.Prolongs s.before)
    (hlast : last < f.lastActivity + inFlightTimeout) (hregular : Regular period last laps)
    (htime : ∃ s ∈ laps, ∃ n ∈ s.event.instant,
      f.lastActivity + (c.lane.ahead q + 1) * (inFlightTimeout + period) ≤ n) :
    (∃ how, .ended q how ∈ history laps) ∧ Outcome (h ++ history laps) c' q := by
  obtain ⟨ha, hidle⟩ : Accounted True h c ∧ (True → c.Idle) := hr.accounted (fun _ _ h => h) fun _ _ _ _ h => h
  obtain ⟨hplain, -⟩ : Accounted False h c ∧ (False → c.Idle) := hr.accounted False.elim fun _ _ _ => False.elim
  obtain ⟨ha', -⟩ := htrace.run.ledger hplain False.elim fun _ _ _ => False.elim
  constructor
  · by_contra hnever
    have hstays : q ∉ Lane.left (laneEvents (history laps)) := by
      intro hleft
      rw [← List.count_pos_iff, count_left_laneEvents] at hleft
      obtain ⟨how, hhow⟩ := List.exists_mem_of_length_pos hleft
      exact hnever ⟨how, mem_endings.mp hhow⟩
    obtain ⟨s, hs, n, hn, hle⟩ := htime
    have hlt := htrace.waits ha (hidle trivial) hopen hq hstays hslot hno hlast hregular s hs n hn
    exact Nat.lt_irrefl _ (Nat.lt_of_lt_of_le hlt hle)
  · exact ha'.outcome (by rw [handedOver_append]; exact List.mem_append_left _ (ha.handed_of_present hq))

/-- A tick in surroundings where every call succeeds. -/
def tickAt (n : Nat) : Event := .timeoutTick (soundAt n)

/-- The radio is silent after the start, with the list of contacts in flight and the first channel behind it. -/
theorem silent : ∃ c laps c' f, booted .off = .ok c ∧ Trace c laps c' ∧
    laps.map (·.event) = [tickAt 5000, tickAt 10000, tickAt 15000, tickAt 20000] ∧ Regular 5000 0 laps ∧
    (⟨none, getChannel 0, 1⟩ : Queued) ∈ c.lane.present ∧ c.lane.ahead ⟨none, getChannel 0, 1⟩ = 1 ∧
    c.inFlight = some f ∧ f.lastActivity = 0 := by
  exact ⟨_, [⟨_, [], tickAt 5000, _⟩, ⟨_, [], tickAt 10000, _⟩, ⟨_, [], tickAt 15000, _⟩, ⟨_, [], tickAt 20000, _⟩],
    _, _,
    show booted .off = .ok _ from rfl, .cons rfl (.cons rfl (.cons rfl (.cons rfl (.nil _)))), rfl,
    by simp [Regular, Event.instant, Event.tickedAt, tickAt, soundAt], by decide +kernel, by decide +kernel, rfl, rfl⟩

theorem ends_in_time_silent : ∃ c laps c', booted .off = .ok c ∧ Trace c laps c' ∧
    laps.map (·.event) = [tickAt 5000, tickAt 10000, tickAt 15000, tickAt 20000] ∧
    ∃ how, .ended ⟨none, getChannel 0, 1⟩ how ∈ history laps := by
  obtain ⟨c, laps, c', f, hboot, htrace, hevents, hregular, hq, hahead, hslot, hactivity⟩ := silent
  have hr : ReachableWith (fun a => a.syncEnv.writerOpen = true) (fun _ _ e => e.SyncOpen) (c.out ++ []) c :=
    ReachableWith.of_turns hboot rfl rfl (List.forall_mem_nil _)
  have htick : ∀ s ∈ laps, ∃ n, s.event = tickAt n := by
    intro s hs
    have hmem := List.mem_map_of_mem (f := fun s : Lap => s.event) hs
    simp only [hevents, List.mem_cons, List.not_mem_nil, or_false] at hmem
    rcases hmem with h | h | h | h <;> exact ⟨_, h⟩
  obtain ⟨s, hs, he⟩ : ∃ s ∈ laps, s.event = tickAt 20000 := List.mem_map.mp (by simp [hevents])
  have hopen : ∀ s ∈ laps, s.event.SyncOpen := by
    intro s hs
    obtain ⟨n, hn⟩ := htick s hs
    simp [hn, tickAt, Event.SyncOpen]
  have hno : ∀ s ∈ laps, ¬s.event.Prolongs s.before := by
    rintro s hs ⟨env, frame, code, f, he, -⟩
    obtain ⟨n, hn⟩ := htick s hs
    simp [hn, tickAt] at he
  exact ⟨c, laps, c', hboot, htrace, hevents,
    (ends_in_time hr htrace hopen hq hslot hno (by rw [hactivity]; decide) hregular
    ⟨s, hs, 20000, by rw [he]; rfl, by rw [hahead, hactivity]; decide⟩).1⟩

end
end Core
end CoreSplitter
