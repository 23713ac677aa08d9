import CoreSplitter.Theorems.Moves

/-! The radio queue over whole runs: every request is in one place, it is answered once, and requests go to
    the radio one at a time in the order they were handed over. -/

namespace CoreSplitter
open Bytes

/-! ### Terminating frames -/

/-- A frame that ends the request for its client: a reply that completes it, or the ERROR sent instead. -/
def Effect.terminates (q : Queued) : Effect → Bool
  | .client cid _ _ frame (.reply t) =>
    q.clientId == some cid && t == q.ticket &&
      frame.head?.any fun code => (awaitingFor q.payload).classify code == (true, true)
  | .client cid _ _ frame (.error t) => q.clientId == some cid && t == q.ticket && frame == [0x01, 0x01]
  | _ => false

/-- The number of terminating frames that were sent for a request. -/
def answers (h : List Effect) (q : Queued) : Nat := h.countP (·.terminates q)

/-- The requests that were handed to the queue. -/
def handedOver (h : List Effect) : List Queued :=
  h.filterMap fun | .handed q => some q | _ => none

/-- The requests that were sent to the radio. -/
def sentToRadio (h : List Effect) : List Queued :=
  h.filterMap fun | .radio q => some q | _ => none

/-- The requests that left the queue another way: their client had disconnected, they could not be sent, or
    the link went down. -/
def leftOut (h : List Effect) : List Queued :=
  h.filterMap fun | .ended q .clientGone | .ended q .sendFailed | .ended q .drained => some q | _ => none

/-- The requests that the radio held and no longer holds. -/
def terminated (h : List Effect) : List Queued :=
  h.filterMap fun | .ended q (.replied _) | .ended q .timedOut | .ended q .linkLost => some q | _ => none

/-- How a request ended. -/
def endings (h : List Effect) (q : Queued) : List Ending :=
  h.filterMap fun | .ended q' how => if q' = q then some how else none | _ => none

def laneEvents (h : List Effect) : List (Lane.Event Queued) := h.filterMap Effect.laneEvent

section
variable {h h' es : List Effect} {e : Effect} {q q' : Queued}

@[simp] theorem answers_append : answers (h ++ h') q = answers h q + answers h' q := List.countP_append

@[simp] theorem laneEvents_append : laneEvents (h ++ h') = laneEvents h ++ laneEvents h' := List.filterMap_append

@[simp] theorem handedOver_append : handedOver (h ++ h') = handedOver h ++ handedOver h' := List.filterMap_append

@[simp] theorem sentToRadio_append : sentToRadio (h ++ h') = sentToRadio h ++ sentToRadio h' := List.filterMap_append

@[simp] theorem endings_append : endings (h ++ h') q = endings h q ++ endings h' q := List.filterMap_append

theorem laneEvents_eq_nil (hes : ∀ e ∈ es, e.laneEvent = none) : laneEvents es = [] :=
  List.filterMap_eq_nil_iff.mpr hes

theorem submitted_laneEvents : Lane.submitted (laneEvents h) = handedOver h := by
  simp only [laneEvents, Lane.submitted, handedOver, List.filterMap_filterMap]
  refine List.filterMap_congr fun e _ => ?_
  rcases e with _ | _ | _ | _ | _ | ⟨_, _ | _⟩ | _ | _ | _ <;> rfl

theorem started_laneEvents : Lane.started (laneEvents h) = sentToRadio h := by
  simp only [laneEvents, Lane.started, sentToRadio, List.filterMap_filterMap]
  refine List.filterMap_congr fun e _ => ?_
  rcases e with _ | _ | _ | _ | _ | ⟨_, _ | _⟩ | _ | _ | _ <;> rfl

theorem dropped_laneEvents : Lane.dropped (laneEvents h) = leftOut h := by
  simp only [laneEvents, Lane.dropped, leftOut, List.filterMap_filterMap]
  refine List.filterMap_congr fun e _ => ?_
  rcases e with _ | _ | _ | _ | _ | ⟨_, _ | _⟩ | _ | _ | _ <;> rfl

theorem finished_laneEvents : Lane.finished (laneEvents h) = terminated h := by
  simp only [laneEvents, Lane.finished, terminated, List.filterMap_filterMap]
  refine List.filterMap_congr fun e _ => ?_
  rcases e with _ | _ | _ | _ | _ | ⟨_, _ | _⟩ | _ | _ | _ <;> rfl

theorem count_left_laneEvents : (Lane.left (laneEvents h)).count q = (endings h q).length := by
  induction h with
  | nil => rfl
  | cons e h ih =>
    rcases e with _ | _ | _ | _ | _ | ⟨q', how⟩ | _ | _ | _
    case ended =>
      have hleft : Lane.left (laneEvents (.ended q' how :: h)) = q' :: Lane.left (laneEvents h) := by
        cases how <;> rfl
      rw [hleft, List.count_cons, ih]
      by_cases hq : q' = q <;> simp [endings, hq]
    all_goals exact ih

theorem mem_handedOver : q ∈ handedOver h ↔ .handed q ∈ h := by
  simp only [handedOver, List.mem_filterMap]
  constructor
  · rintro ⟨e, he, hq⟩
    cases e <;> simp_all
  · exact fun hq => ⟨_, hq, rfl⟩

theorem mem_sentToRadio : q ∈ sentToRadio h ↔ .radio q ∈ h := by
  simp only [sentToRadio, List.mem_filterMap]
  constructor
  · rintro ⟨e, he, hq⟩
    cases e <;> simp_all
  · exact fun hq => ⟨_, hq, rfl⟩

theorem mem_endings {how : Ending} : how ∈ endings h q ↔ .ended q how ∈ h := by
  simp only [endings, List.mem_filterMap]
  constructor
  · rintro ⟨e, he, hq⟩
    cases e <;> simp_all
  · exact fun hq => ⟨_, hq, if_pos rfl⟩

theorem length_endings_ended {how : Ending} : (endings [.ended q how] q').length = [q].count q' := by
  by_cases hq : q = q' <;> simp [endings, hq]

theorem laneEvent_ended {how : Ending} : (Effect.ended q how).laneEvent ≠ none := by
  cases how <;> nofun

theorem left_of_ended {how : Ending} (hq : .ended q how ∈ h) : q ∈ Lane.left (laneEvents h) :=
  List.count_pos_iff.mp (by rw [count_left_laneEvents]; exact List.length_pos_of_mem (mem_endings.mpr hq))

theorem Effect.isAnswer_of_terminates (h : e.terminates q = true) : e.isAnswer = true ∧ e.about = some q.ticket := by
  unfold terminates at h
  split at h <;> simp_all [Effect.isAnswer, Effect.about]

theorem answers_eq_zero (hes : ∀ e ∈ es, e.isAnswer = true → e.about ≠ some q.ticket) : answers es q = 0 := by
  refine List.countP_eq_zero.mpr fun e he hq => ?_
  obtain ⟨ha, hb⟩ := Effect.isAnswer_of_terminates hq
  exact hes e he ha hb

/-- The layout of a message does not decide whether it ends a request. -/
theorem classify_layout {p : Command} : (awaitingFor p).classify 0x10 = (awaitingFor p).classify 0x07 ∧
    (awaitingFor p).classify 0x11 = (awaitingFor p).classify 0x08 := by
  unfold awaitingFor
  split <;> first | decide | (split <;> decide)

theorem classify_messageFrameFor {p : Command} {version : UInt8} {frame : Bytes} :
    (messageFrameFor version frame).head?.map (awaitingFor p).classify = frame.head?.map (awaitingFor p).classify := by
  obtain ⟨h10, h11⟩ := classify_layout (p := p)
  unfold messageFrameFor
  split
  · rfl
  · rename_i code rest
    split
    · rename_i hcode
      obtain ⟨rfl | rfl, -⟩ := hcode
      · simpa using h10.symm
      · simpa using h11.symm
    · split
      · rename_i hcode
        obtain ⟨rfl | rfl, -⟩ := hcode
        · simpa using h10
        · simpa using h11
      · rfl

end

/-! ### Accounting -/

namespace Core

/-- What holds of a core that has emitted `h`, with `orderly` for a queue that no request overtakes. -/
structure Accounted (orderly : Prop) (h : List Effect) (c : Core) : Prop where
  lane : Lane.Run orderly .empty (laneEvents h) c.lane
  tickets : ∀ q ∈ handedOver h, q.ticket < c.nextTicket
  unique : ((handedOver h).map (·.ticket)).Nodup
  valid : c.clients.Valid
  known : ∀ q ∈ handedOver h, c.Known q.clientId
  awaiting : ∀ f, c.inFlight = some f → f.awaiting = awaitingFor f.payload
  fresh : ∀ e ∈ h, e.isAnswer = true → ∀ t, e.about = some t → t < c.nextTicket
  unanswered : ∀ q ∈ c.lane.present, answers h q = 0
  closed : ∀ q how, .ended q how ∈ h → how ≠ .clientGone → answers h q ≤ 1 ∧
    ∀ cid, q.clientId = some cid → cid ∈ c.clients.channels → answers h q = 1
  gone : ∀ q, .ended q .clientGone ∈ h → answers h q = 0 ∧
    ∃ cid, q.clientId = some cid ∧ cid ∉ c.clients.channels

namespace Accounted
variable {orderly : Prop} {h es : List Effect} {c c' : Core} {q q' : Queued}

theorem eq_of_ticket (ha : Accounted orderly h c) (hq : q ∈ handedOver h) (hq' : q' ∈ handedOver h)
    (ht : q.ticket = q'.ticket) : q = q' := List.inj_on_of_nodup_map ha.unique hq hq' ht

theorem handed_of_present (ha : Accounted orderly h c) (hq : q ∈ c.lane.present) : q ∈ handedOver h := by
  have hcount := ha.lane.count_present q
  have hpos := List.count_pos_iff.mpr hq
  simp only [Lane.present, Lane.empty, Option.toList_none, List.append_nil, List.count_nil] at hcount
  rw [submitted_laneEvents] at hcount
  exact List.count_pos_iff.mp (by simp only [Lane.present] at hpos; omega)

theorem handed_of_ended (ha : Accounted orderly h c) {how : Ending} (hq : .ended q how ∈ h) : q ∈ handedOver h :=
  submitted_laneEvents ▸ ha.lane.submitted_of_left (left_of_ended hq)

/-- A client of a request handed over before is not connected again. -/
theorem connected_before (ha : Accounted orderly h c) (hl : c.clients.Later c'.clients) (hq : q ∈ handedOver h)
    {cid : ClientId} (hclient : q.clientId = some cid) (hcid : cid ∈ c'.clients.channels) :
    cid ∈ c.clients.channels := hl.old cid hcid (ha.known q hq cid hclient)

/-- Effects that neither answer a request nor end one. -/
theorem advance (ha : Accounted orderly h c) (hlane : Lane.Run orderly c.lane (laneEvents es) c'.lane)
    (hended : ∀ q how, Effect.ended q how ∉ es) (hans : ∀ q ∈ handedOver (h ++ es), answers es q = 0)
    (hfresh : ∀ e ∈ es, e.isAnswer = true → ∀ t, e.about = some t → t < c'.nextTicket)
    (hnew : ∀ q ∈ handedOver es, c.nextTicket ≤ q.ticket ∧ q.ticket < c'.nextTicket ∧ c'.Known q.clientId)
    (hnodup : ((handedOver es).map (·.ticket)).Nodup) (htickets : c.nextTicket ≤ c'.nextTicket)
    (hlater : c.clients.Later c'.clients) (hvalid : c.clients.Valid → c'.clients.Valid)
    (hawaiting : ∀ f, c'.inFlight = some f → f.awaiting = awaitingFor f.payload) :
    Accounted orderly (h ++ es) c' := by
  have hold (q : Queued) (hq : q ∈ handedOver h) : answers es q = 0 :=
    hans q (by rw [handedOver_append]; exact List.mem_append_left _ hq)
  have hback {q : Queued} {how : Ending} (hq : .ended q how ∈ h ++ es) : Effect.ended q how ∈ h :=
    (List.mem_append.mp hq).resolve_right (hended q how)
  refine ⟨?_, ?_, ?_, hvalid ha.valid, ?_, hawaiting, ?_, ?_, ?_, ?_⟩
  · rw [laneEvents_append]
    exact ha.lane.trans hlane
  · intro q hq
    rw [handedOver_append, List.mem_append] at hq
    rcases hq with hq | hq
    · exact Nat.lt_of_lt_of_le (ha.tickets q hq) htickets
    · exact (hnew q hq).2.1
  · rw [handedOver_append, List.map_append, List.nodup_append]
    refine ⟨ha.unique, hnodup, fun t ht t' ht' heq => ?_⟩
    obtain ⟨q, hq, rfl⟩ := List.mem_map.mp ht
    obtain ⟨q', hq', rfl⟩ := List.mem_map.mp ht'
    exact absurd heq (Nat.ne_of_lt (Nat.lt_of_lt_of_le (ha.tickets q hq) (hnew q' hq').1))
  · intro q hq
    rw [handedOver_append, List.mem_append] at hq
    rcases hq with hq | hq
    · exact fun cid hcid => Nat.lt_of_lt_of_le (ha.known q hq cid hcid) hlater.nextId
    · exact (hnew q hq).2.2
  · intro e he hea t ht
    rcases List.mem_append.mp he with he | he
    · exact Nat.lt_of_lt_of_le (ha.fresh e he hea t ht) htickets
    · exact hfresh e he hea t ht
  · intro q hq
    have hcount := hlane.count_present q
    have hpos := List.count_pos_iff.mpr hq
    rw [answers_append]
    by_cases hbefore : q ∈ c.lane.present
    · rw [ha.unanswered q hbefore, hold q (ha.handed_of_present hbefore)]
    · rw [List.count_eq_zero.mpr hbefore] at hcount
      rw [submitted_laneEvents] at hcount
      have hsub : q ∈ handedOver es := List.count_pos_iff.mp (by omega)
      rw [hans q (by rw [handedOver_append]; exact List.mem_append_right _ hsub), Nat.add_zero]
      refine answers_eq_zero fun e he hea heq => ?_
      exact absurd (ha.fresh e he hea _ heq) (Nat.not_lt.mpr (hnew q hsub).1)
  · intro q how hq hne
    have hhanded := ha.handed_of_ended (hback hq)
    obtain ⟨hle, hone⟩ := ha.closed q how (hback hq) hne
    rw [answers_append, hold q hhanded, Nat.add_zero]
    exact ⟨hle, fun cid hclient hcid => hone cid hclient (ha.connected_before hlater hhanded hclient hcid)⟩
  · intro q hq
    have hhanded := ha.handed_of_ended (hback hq)
    obtain ⟨hzero, cid, hclient, hgone⟩ := ha.gone q (hback hq)
    rw [answers_append, hold q hhanded, Nat.add_zero]
    exact ⟨hzero, cid, hclient, fun hcid => hgone (ha.connected_before hlater hhanded hclient hcid)⟩

/-- A request leaves for good. -/
theorem close (ha : Accounted orderly h c) {how : Ending} {ev : Lane.Event Queued}
    (hev : (Effect.ended q how).laneEvent = some ev) (hstep : Lane.Step orderly c.lane ev c'.lane)
    (hes : ∀ e ∈ es, e.laneEvent = none ∧ (e.isAnswer = true → e.about = some q.ticket))
    (hle : answers es q ≤ 1)
    (hone : how ≠ .clientGone → ∀ cid, q.clientId = some cid → cid ∈ c'.clients.channels → answers es q = 1)
    (hgone : how = .clientGone → answers es q = 0 ∧ ∃ cid, q.clientId = some cid ∧ cid ∉ c'.clients.channels)
    (htickets : c'.nextTicket = c.nextTicket) (hlater : c.clients.Later c'.clients)
    (hvalid : c.clients.Valid → c'.clients.Valid)
    (hawaiting : ∀ f, c'.inFlight = some f → f.awaiting = awaitingFor f.payload) :
    Accounted orderly (h ++ (es ++ [.ended q how])) c' := by
  have hesnil : laneEvents es = [] := laneEvents_eq_nil fun e he => (hes e he).1
  have hone_ev : laneEvents [.ended q how] = [ev] := by simp [laneEvents, hev]
  have hevents : laneEvents (h ++ (es ++ [.ended q how])) = laneEvents h ++ [ev] := by
    simp only [laneEvents_append, hesnil, List.nil_append, hone_ev]
  have hhanded : handedOver (h ++ (es ++ [.ended q how])) = handedOver h := by
    rw [handedOver_append, handedOver_append, ← submitted_laneEvents (h := es), hesnil]
    exact List.append_nil _
  have hleave (q' : Queued) : c.lane.present.count q' = c'.lane.present.count q' + [q].count q' := by
    have hcount := (Lane.Run.one hstep).count_present q'
    rw [← hone_ev, submitted_laneEvents, count_left_laneEvents, length_endings_ended] at hcount
    exact hcount
  have hbefore : q ∈ c.lane.present := List.count_pos_iff.mp (by rw [hleave, List.count_singleton_self]; omega)
  have hq := ha.handed_of_present hbefore
  -- Only what is about `q` is answered.
  have hother {q' : Queued} (hq' : q' ∈ handedOver h) (hne : q' ≠ q) : answers (es ++ [.ended q how]) q' = 0 := by
    refine answers_eq_zero fun e he hea heq => ?_
    rcases List.mem_append.mp he with he | he
    · have hticket := (hes e he).2 hea
      exact hne (ha.eq_of_ticket hq' hq (Option.some.inj (heq.symm.trans hticket)))
    · obtain rfl := List.mem_singleton.mp he
      cases hea
  have hself : answers (h ++ (es ++ [.ended q how])) q = answers es q := by
    simp only [answers_append, ha.unanswered q hbefore, Nat.zero_add]
    rfl
  have hended {q' : Queued} {how' : Ending} (hq' : .ended q' how' ∈ h ++ (es ++ [.ended q how])) :
      (Effect.ended q' how' ∈ h ∧ q' ≠ q) ∨ (q' = q ∧ how' = how) := by
    rcases List.mem_append.mp hq' with hin | hin
    · refine Or.inl ⟨hin, ?_⟩
      rintro rfl
      have hcount := ha.lane.count_present q'
      have hone := List.nodup_iff_count_le_one.mp (List.Nodup.of_map _ ha.unique) q'
      have hpos := List.count_pos_iff.mpr hbefore
      have hleft := List.count_pos_iff.mpr (left_of_ended hin)
      simp only [Lane.present, Lane.empty, Option.toList_none, List.append_nil, List.count_nil] at hcount
      simp only [Lane.present] at hpos
      rw [submitted_laneEvents] at hcount
      omega
    · rcases List.mem_append.mp hin with hin | hin
      · exact absurd (hes _ hin).1 laneEvent_ended
      · cases List.mem_singleton.mp hin
        exact Or.inr ⟨rfl, rfl⟩
  refine ⟨?_, ?_, ?_, hvalid ha.valid, ?_, hawaiting, ?_, ?_, ?_, ?_⟩
  · rw [hevents]
    exact ha.lane.step hstep
  · rw [hhanded, htickets]
    exact ha.tickets
  · rw [hhanded]
    exact ha.unique
  · rw [hhanded]
    exact fun q' hq' cid hcid => Nat.lt_of_lt_of_le (ha.known q' hq' cid hcid) hlater.nextId
  · intro e he hea t ht
    rw [htickets]
    rcases List.mem_append.mp he with he | he
    · exact ha.fresh e he hea t ht
    · rcases List.mem_append.mp he with he | he
      · obtain rfl := Option.some.inj (((hes e he).2 hea).symm.trans ht)
        exact ha.tickets q hq
      · obtain rfl := List.mem_singleton.mp he
        cases hea
  · intro q' hq'
    have hpos := List.count_pos_iff.mpr hq'
    have hne : q' ≠ q := by
      rintro rfl
      have hcount := ha.lane.count_present q'
      have hone := List.nodup_iff_count_le_one.mp (List.Nodup.of_map _ ha.unique) q'
      have hl := hleave q'
      rw [List.count_singleton_self] at hl
      rw [submitted_laneEvents] at hcount
      simp only [Lane.present, Lane.empty, Option.toList_none, List.append_nil, List.count_nil] at hcount hl hpos
      omega
    have hbefore' : q' ∈ c.lane.present := List.count_pos_iff.mp (by rw [hleave]; omega)
    rw [answers_append, ha.unanswered q' hbefore', hother (ha.handed_of_present hbefore') hne]
  · intro q' how' hq' hne
    rcases hended hq' with ⟨hin, hneq⟩ | ⟨rfl, rfl⟩
    · have hq'' := ha.handed_of_ended hin
      obtain ⟨hle', hone'⟩ := ha.closed q' how' hin hne
      rw [answers_append, hother hq'' hneq, Nat.add_zero]
      exact ⟨hle', fun cid hclient hcid => hone' cid hclient (ha.connected_before hlater hq'' hclient hcid)⟩
    · rw [hself]
      exact ⟨hle, hone hne⟩
  · intro q' hq'
    rcases hended hq' with ⟨hin, hneq⟩ | ⟨rfl, rfl⟩
    · have hq'' := ha.handed_of_ended hin
      obtain ⟨hzero, cid, hclient, hgone'⟩ := ha.gone q' hin
      rw [answers_append, hother hq'' hneq, Nat.add_zero]
      exact ⟨hzero, cid, hclient, fun hcid => hgone' (ha.connected_before hlater hq'' hclient hcid)⟩
    · rw [hself]
      exact hgone rfl

end Accounted

/-! ### Moves keep the account -/

/-- The account of a core with what it emitted, after `h`. -/
def Ledger (orderly : Prop) (h : List Effect) (c : Core) : Prop := Accounted orderly (h ++ c.out) c

section
variable {orderly : Prop} {p : Effect → Prop} {h es : List Effect} {c c' : Core} {q : Queued} {rest : List Queued}
  {env : Env} {t : Option Ticket}

theorem lane_of_kept (hk : Kept p c c') : c'.lane = c.lane := by
  simp only [lane, hk.queue, hk.slot]

theorem Ledger.kept (hl : Ledger orderly h c) (hk : Kept p c c')
    (hp : ∀ e, p e → e.laneEvent = none ∧ e.isAnswer = false) : Ledger orderly h c' := by
  obtain ⟨es, hout, hes⟩ := hk.out
  have hlane : laneEvents es = [] := laneEvents_eq_nil fun e he => (hp e (hes e he)).1
  have hnone (e : Effect) (he : e ∈ es) : e.isAnswer ≠ true := by simp [(hp e (hes e he)).2]
  unfold Ledger
  rw [hout, ← List.append_assoc]
  refine Accounted.advance hl ?_ ?_ ?_ ?_ ?_ ?_ ?_ hk.clients.later hk.valid ?_
  · rw [hlane, lane_of_kept hk]
    exact .refl _
  · exact fun q how he => absurd (hp _ (hes _ he)).1 laneEvent_ended
  · exact fun q _ => answers_eq_zero fun e he hea => absurd hea (hnone e he)
  · exact fun e he hea => absurd hea (hnone e he)
  · simp [← submitted_laneEvents, hlane, Lane.submitted]
  · simp [← submitted_laneEvents, hlane, Lane.submitted]
  · exact Nat.le_of_eq hk.tickets.symm
  · exact fun f hf => hl.awaiting f (hk.slot ▸ hf)

theorem Ledger.side (hl : Ledger orderly h c) (hk : Kept (Effect.Side t) c c') : Ledger orderly h c' :=
  hl.kept hk fun _ he => ⟨he.lane, he.answer⟩

/-- An effect that only moves a request. -/
theorem Ledger.move (hl : Ledger orderly h c) {e : Effect} {ev : Lane.Event Queued} (hev : e.laneEvent = some ev)
    (hended : ∀ q how, e ≠ .ended q how) (hout : c'.out = c.out ++ [e]) (hstep : Lane.Step orderly c.lane ev c'.lane)
    (hnew : ∀ q, e = .handed q → q.ticket = c.nextTicket ∧ c'.nextTicket = c.nextTicket + 1 ∧ c'.Known q.clientId)
    (htickets : c.nextTicket ≤ c'.nextTicket) (hlater : c.clients.Later c'.clients)
    (hvalid : c.clients.Valid → c'.clients.Valid)
    (hawaiting : ∀ f, c'.inFlight = some f → f.awaiting = awaitingFor f.payload) : Ledger orderly h c' := by
  have hans : e.isAnswer = false := by cases e <;> first | rfl | cases hev
  have hlane : laneEvents [e] = [ev] := by simp [laneEvents, hev]
  have hsub (q : Queued) (hq : q ∈ handedOver [e]) : e = .handed q :=
    (List.mem_singleton.mp (mem_handedOver.mp hq)).symm
  unfold Ledger
  rw [hout, ← List.append_assoc]
  refine Accounted.advance hl (hlane ▸ .one hstep) ?_ ?_ ?_ ?_ ?_ htickets hlater hvalid hawaiting
  · exact fun q how he => hended q how (List.mem_singleton.mp he).symm
  · exact fun q _ => answers_eq_zero fun e' he hea => by simp [List.mem_singleton.mp he, hans] at hea
  · exact fun e' he hea => by simp [List.mem_singleton.mp he, hans] at hea
  · intro q hq
    obtain ⟨h1, h2, h3⟩ := hnew q (hsub q hq)
    exact ⟨Nat.le_of_eq h1.symm, by rw [h1, h2]; exact Nat.lt_succ_self _, h3⟩
  · rw [← submitted_laneEvents, hlane]
    cases ev <;> simp [Lane.submitted]

/-- A frame sent for `q` to its client, if the client is connected. -/
theorem sendToClient_answers {cid : ClientId} {frame : Bytes} {why : Why} (hclient : q.clientId = some cid)
    (hterm : (c.lockClients.delivery cid frame why).terminates q = true) :
    ∃ es, (c.sendToClient cid frame why).out = c.out ++ es ∧
      (∀ e ∈ es, e = c.lockClients.delivery cid frame why) ∧ answers es q ≤ 1 ∧
      ∀ cid', q.clientId = some cid' → cid' ∈ (c.sendToClient cid frame why).clients.channels → answers es q = 1 := by
  unfold sendToClient
  dsimp only
  split
  · refine ⟨[c.lockClients.delivery cid frame why], rfl, by simp, ?_, fun _ _ _ => ?_⟩ <;> simp [answers, hterm]
  · rename_i hgone
    refine ⟨[], (List.append_nil _).symm, List.forall_mem_nil _, Nat.zero_le _, fun cid' hcid' hmem => ?_⟩
    obtain rfl := Option.some.inj (hclient.symm.trans hcid')
    exact absurd (List.contains_iff_mem.mpr hmem) hgone

theorem error_terminates {cid : ClientId} (hclient : q.clientId = some cid) :
    (c.delivery cid [0x01, 0x01] (.error q.ticket)).terminates q = true := by
  simp [delivery, Effect.terminates, hclient, messageFrameFor]

theorem failTo_answers : ∃ es, (c.failTo q).out = c.out ++ es ∧
    (∀ e ∈ es, e.laneEvent = none ∧ (e.isAnswer = true → e.about = some q.ticket)) ∧ answers es q ≤ 1 ∧
    ∀ cid, q.clientId = some cid → cid ∈ (c.failTo q).clients.channels → answers es q = 1 := by
  unfold failTo
  split
  · rename_i cid hclient
    obtain ⟨es, hout, hes, hle, hone⟩ := sendToClient_answers (c := c) hclient (error_terminates hclient)
    refine ⟨es, hout, fun e he => ?_, hle, hone⟩
    rw [hes e he]
    exact ⟨rfl, fun _ => rfl⟩
  · rename_i hnone
    exact ⟨[], (List.append_nil _).symm, List.forall_mem_nil _, Nat.zero_le _,
      fun cid hcid => by rw [hnone] at hcid; cases hcid⟩

/-- A request is failed: its client gets the ERROR, and the request leaves. -/
theorem Ledger.fail (hl : Ledger orderly h c) (c₁ : Core) {how : Ending} {ev : Lane.Event Queued}
    (hev : (Effect.ended q how).laneEvent = some ev) (hne : how ≠ .clientGone)
    (htickets : c₁.nextTicket = c.nextTicket) (hclients : c₁.clients = c.clients) (hout₁ : c₁.out = c.out)
    (hstep : Lane.Step orderly c.lane ev c₁.lane)
    (hawaiting : ∀ f, c₁.inFlight = some f → f.awaiting = awaitingFor f.payload) :
    Ledger orderly h ((c₁.failTo q).emit (.ended q how)) := by
  obtain ⟨es, hout, hes, hle, hone⟩ := failTo_answers (c := c₁) (q := q)
  have hfail : Still (IsErrorOf q) c₁ (c₁.failTo q) := failTo_still
  unfold Ledger
  rw [show ((c₁.failTo q).emit (.ended q how)).out = c.out ++ (es ++ [.ended q how]) by
    rw [← List.append_assoc, ← hout₁, ← hout]; rfl, ← List.append_assoc]
  refine Accounted.close (c := c) hl hev ?_ hes hle (fun _ => hone) (fun heq => absurd heq hne) ?_ ?_ ?_ ?_
  · have hlane : (c₁.failTo q).lane = c₁.lane := lane_of_kept hfail.toKept
    exact hlane.symm ▸ hstep
  · exact hfail.tickets.trans htickets
  · exact hclients ▸ hfail.clients.later
  · exact hclients ▸ hfail.valid
  · exact fun f hf => hawaiting f (hfail.slot ▸ hf)

theorem Move.ledger (hm : Move orderly env t c c') (hl : Ledger orderly h c) : Ledger orderly h c' := by
  cases hm with
  | still hs => exact hl.side hs.toKept
  | relay hs => exact hl.kept hs.toKept fun _ he => ⟨he.lane, he.answer⟩
  | submit clientId payload hclient =>
    refine hl.move (e := .handed ⟨clientId, payload, c.nextTicket⟩) rfl (by rintro _ _ ⟨⟩) rfl (.submit _) ?_
      (Nat.le_succ _) .refl id hl.awaiting
    rintro q ⟨⟩
    exact ⟨rfl, rfl, hclient⟩
  | jump clientId payload hclient hfree hqueue =>
    refine hl.move (e := .handed ⟨clientId, payload, c.nextTicket⟩) rfl (by rintro _ _ ⟨⟩) rfl ?_ ?_ (Nat.le_succ _)
      .refl id hl.awaiting
    · have hlane : c.lane = ⟨c.pendingQueue, none⟩ := by simp [lane, hfree]
      have hlane' : (c.pushFront clientId payload).lane =
          ⟨⟨clientId, payload, c.nextTicket⟩ :: c.pendingQueue, none⟩ := by simp [lane, pushFront, hand, emit, hfree]
      rw [hlane, hlane']
      exact .jump _ hqueue
    · rintro q ⟨⟩
      exact ⟨rfl, rfl, hclient⟩
  | @start q rest hqueue hfree hsend =>
    have hkept {p : Effect → Prop} : Kept p ((c.popped rest).emit (.radio q))
        (((c.popped rest).emit (.radio q)).invalidate env q.payload) := invalidate_kept
    have hlane : c.lane = ⟨q :: rest, none⟩ := by simp [lane, hqueue, hfree]
    have hlane' : ((c.popped rest).startWith env q).lane = ⟨rest, some q⟩ := by
      simp only [lane, startWith, Option.map_some]
      exact congrArg (Lane.mk · _) (hkept (p := fun _ => False)).queue
    refine hl.move (e := .radio q) rfl (by rintro _ _ ⟨⟩) (hkept.silent) ?_ (by rintro _ ⟨⟩)
      (Nat.le_of_eq (hkept (p := fun _ => False)).tickets.symm) (hkept (p := fun _ => False)).clients.later
      (hkept (p := fun _ => False)).valid ?_
    · rw [hlane, hlane']
      exact .start
    · rintro f ⟨⟩
      rfl
  | @refuse q rest hqueue hsend =>
    refine hl.fail (c.popped rest) rfl (by decide) rfl rfl rfl ?_ hl.awaiting
    have hlane : c.lane = ⟨q :: rest, c.inFlight.map InFlight.request⟩ := by simp [lane, hqueue]
    rw [hlane]
    exact .drop
  | @drop q rest cid hqueue hclient hgone =>
    unfold Ledger
    rw [show ((c.popped rest).emit (.ended q .clientGone)).out = c.out ++ ([] ++ [.ended q .clientGone]) from rfl,
      ← List.append_assoc]
    refine Accounted.close hl rfl ?_ (List.forall_mem_nil _) (Nat.zero_le _) (fun hne => absurd rfl hne)
      (fun _ => ⟨rfl, cid, hclient, hgone⟩) rfl .refl id hl.awaiting
    have hlane : c.lane = ⟨q :: rest, c.inFlight.map InFlight.request⟩ := by simp [lane, hqueue]
    rw [hlane]
    exact .drop

theorem Moves.ledger (hm : Moves orderly env t c c') (hl : Ledger orderly h c) : Ledger orderly h c' := by
  induction hm with
  | refl => exact hl
  | tail _ hm ih => exact hm.ledger ih

/-! ### The request in flight -/

variable {f : InFlight} {code : UInt8} {frame : Bytes}

theorem reply_terminates {cid : ClientId} (hcode : frame.head? = some code)
    (hawaiting : f.awaiting = awaitingFor f.payload) (hclient : f.clientId = some cid) :
    (c.delivery cid frame (.reply f.ticket)).terminates f.request = (f.awaiting.classify code == (true, true)) := by
  have hlayout : (messageFrameFor (c.protocolVersion cid) frame).head?.map (awaitingFor f.payload).classify =
      frame.head?.map (awaitingFor f.payload).classify := classify_messageFrameFor
  rw [hcode, ← hawaiting, Option.map_some] at hlayout
  obtain ⟨code', hcode', hsame⟩ := Option.map_eq_some_iff.mp hlayout
  simp [delivery, Effect.terminates, InFlight.request, hclient, hcode', ← hawaiting, hsame]

theorem answers_ofReply (hes : ∀ e ∈ es, e.isAnswer = false) : answers es q = 0 :=
  answers_eq_zero fun e he hea => by rw [hes e he] at hea; cases hea

theorem recordAck_out {cid : ClientId} : ∃ es, (c.recordAck env cid f.ticket code frame).out = c.out ++ es ∧
    ∀ e ∈ es, ∃ ack, e = .ackPending f.ticket ack := by
  unfold recordAck
  dsimp only
  split
  · exact ⟨[_], rfl, by simp⟩
  · exact ⟨[], (List.append_nil _).symm, List.forall_mem_nil _⟩

theorem replyToClient_answers (c : Core) (env : Env) (hcode : frame.head? = some code)
    (hawaiting : f.awaiting = awaitingFor f.payload) :
    ∃ es, (c.replyToClient env f code frame).out = c.out ++ es ∧ (∀ e ∈ es, e.OfReply f) ∧
      (f.awaiting.classify code ≠ (true, true) → answers es f.request = 0) ∧ answers es f.request ≤ 1 ∧
      (f.awaiting.classify code = (true, true) → ∀ cid, f.clientId = some cid →
        cid ∈ (c.replyToClient env f code frame).clients.channels → answers es f.request = 1) := by
  unfold replyToClient
  split
  · rename_i cid hclient
    obtain ⟨es, hout, hacks⟩ : ∃ es, (c.recordAck env cid f.ticket code frame).out = c.out ++ es ∧
        ∀ e ∈ es, ∃ ack, e = .ackPending f.ticket ack := recordAck_out
    have hes : ∀ e ∈ es, e.OfReply f ∧ e.isAnswer = false := fun e he => by
      obtain ⟨ack, rfl⟩ := hacks e he
      exact ⟨⟨rfl, rfl⟩, rfl⟩
    have hzero : answers es f.request = 0 := answers_ofReply fun e he => (hes e he).2
    have hterm := reply_terminates (c := (c.recordAck env cid f.ticket code frame).lockClients) hcode hawaiting hclient
    unfold sendToClient
    dsimp only
    split
    · refine ⟨es ++ [_], by rw [← List.append_assoc, ← hout]; rfl, fun e he => ?_, ?_⟩
      · rcases List.mem_append.mp he with he | he
        · exact (hes e he).1
        · exact List.mem_singleton.mp he ▸ ⟨rfl, rfl⟩
      · simp only [answers_append, hzero, Nat.zero_add]
        by_cases hends : f.awaiting.classify code = (true, true) <;> simp [answers, hterm, hends]
    · rename_i hgone
      refine ⟨es, hout, fun e he => (hes e he).1, fun _ => hzero, by omega, fun _ cid' hcid' hmem => ?_⟩
      obtain rfl := Option.some.inj (hclient.symm.trans hcid')
      exact absurd (List.contains_iff_mem.mpr hmem) hgone
  · rename_i hnone
    exact ⟨[], (List.append_nil _).symm, List.forall_mem_nil _, fun _ => rfl, Nat.zero_le _, fun _ cid hcid => by
      rw [hnone] at hcid; cases hcid⟩

theorem deliverReply_answers (c : Core) (env : Env) (hcode : frame.head? = some code)
    (hawaiting : f.awaiting = awaitingFor f.payload) :
    ∃ es, (c.deliverReply env f code frame).out = c.out ++ es ∧ (∀ e ∈ es, e.OfReply f) ∧
      (f.awaiting.classify code ≠ (true, true) → answers es f.request = 0) ∧ answers es f.request ≤ 1 ∧
      (f.awaiting.classify code = (true, true) → ∀ cid, f.clientId = some cid → cid < c.clients.nextId →
        cid ∈ (c.deliverReply env f code frame).clients.channels → answers es f.request = 1) := by
  obtain ⟨es, hout, hes, hpart, hle, hone⟩ := replyToClient_answers c env hcode hawaiting
  rw [deliverReply_eq]
  split
  · -- The frame goes to the others too, which answers nothing.
    have hfan : ∀ e ∈ ((c.replyToClient env f code frame).lockClients.clients.channels.filter
        fun cid => f.clientId != some cid).map fun cid =>
          (c.replyToClient env f code frame).lockClients.delivery cid frame (.fanout f.ticket),
        e.OfReply f ∧ e.isAnswer = false := by
      intro e he
      obtain ⟨cid, -, rfl⟩ := List.mem_map.mp he
      exact ⟨⟨rfl, rfl⟩, rfl⟩
    have hzero := answers_ofReply (q := f.request) fun e he => (hfan e he).2
    refine ⟨es ++ _, by rw [← List.append_assoc, ← hout]; rfl, fun e he => ?_, ?_, ?_, ?_⟩
    · exact (List.mem_append.mp he).elim (hes e) fun he => (hfan e he).1
    · simpa only [answers_append, hzero, Nat.add_zero] using hpart
    · simpa only [answers_append, hzero, Nat.add_zero] using hle
    · simp only [answers_append, hzero, Nat.add_zero]
      intro hends cid hclient hknown hmem
      refine hone hends cid hclient ?_
      have hlater : (c.replyToClient env f code frame).clients.Later
          (c.replyToClient env f code frame).clients.lock := Clients.lock_later
      have hstill : Still (Effect.OfReply f) c (c.replyToClient env f code frame) := replyToClient_still
      have hnext := hstill.clients.later.nextId
      exact hlater.old cid hmem (Nat.lt_of_lt_of_le hknown hnext)
  · exact ⟨es, hout, hes, hpart, hle, fun hends cid hclient _ => hone hends cid hclient⟩

theorem lane_of_inFlight (hslot : c.inFlight = some f) : c.lane = ⟨c.pendingQueue, some f.request⟩ := by
  simp [lane, hslot]

theorem Ledger.part (hl : Ledger orderly h c) (hslot : c.inFlight = some f) (hcode : frame.head? = some code)
    (hends : f.awaiting.classify code = (true, false)) : Ledger orderly h (c.replyPart env f code frame) := by
  have hawaiting := hl.awaiting f hslot
  obtain ⟨es, hout, hes, hpart, -, -⟩ := deliverReply_answers c env hcode hawaiting
  have hkept : Kept (Effect.OfReply f) c (c.deliverReply env f code frame) := deliverReply_still.toKept
  have hq : f.request ∈ handedOver (h ++ c.out) := Accounted.handed_of_present hl (by
    rw [lane_of_inFlight hslot]
    simp [Lane.present])
  have hnil : laneEvents es = [] := laneEvents_eq_nil fun e he => (hes e he).lane
  have hnone : handedOver es = [] := by rw [← submitted_laneEvents, hnil]; rfl
  unfold Ledger
  rw [show (c.replyPart env f code frame).out = c.out ++ es from hout, ← List.append_assoc]
  refine Accounted.advance hl ?_ ?_ ?_ ?_ ?_ ?_ (Nat.le_of_eq hkept.tickets.symm) hkept.clients.later hkept.valid ?_
  · rw [hnil, lane_of_inFlight hslot]
    simp only [lane, replyPart, hkept.queue]
    exact .refl _
  · exact fun q how he => absurd (hes _ he).lane laneEvent_ended
  · intro q hq'
    rw [handedOver_append, hnone, List.append_nil] at hq'
    by_cases hsame : q = f.request
    · exact hsame ▸ hpart (by simp [hends])
    · refine answers_eq_zero fun e he _ heq => hsame (Accounted.eq_of_ticket hl hq' hq ?_)
      exact (Option.some.inj ((hes e he).about.symm.trans heq)).symm
  · intro e he _ t ht
    obtain rfl := Option.some.inj ((hes e he).about.symm.trans ht)
    exact Nat.lt_of_lt_of_le (hl.tickets _ hq) (Nat.le_of_eq hkept.tickets.symm)
  · simp [hnone]
  · simp [hnone]
  · rintro g ⟨⟩
    exact hawaiting

theorem Ledger.finish (hl : Ledger orderly h c) (hslot : c.inFlight = some f) (hcode : frame.head? = some code)
    (hends : f.awaiting.classify code = (true, true)) : Ledger orderly h (c.finish env f code frame) := by
  obtain ⟨es, hout, hes, -, hle, hone⟩ := deliverReply_answers c env hcode (hl.awaiting f hslot)
  have hkept : Kept (Effect.OfReply f) c (c.deliverReply env f code frame) := deliverReply_still.toKept
  have hq : f.request ∈ handedOver (h ++ c.out) := Accounted.handed_of_present hl (by
    rw [lane_of_inFlight hslot]
    simp [Lane.present])
  unfold Ledger
  rw [show (c.finish env f code frame).out = c.out ++ (es ++ [.ended f.request (.replied code)]) by
    rw [← List.append_assoc, ← hout]; rfl, ← List.append_assoc]
  refine Accounted.close hl rfl ?_ (fun e he => ⟨(hes e he).lane, fun _ => (hes e he).about⟩) hle ?_
    (by rintro ⟨⟩) hkept.tickets hkept.clients.later hkept.valid (by rintro _ ⟨⟩)
  · rw [lane_of_inFlight hslot]
    simp only [lane, Core.finish, emit, hkept.queue]
    exact .finish
  · exact fun _ cid hclient hmem => hone hends cid hclient (hl.known _ hq cid hclient) hmem

theorem Ledger.free (hl : Ledger orderly h c) (hslot : c.inFlight = some f) {how : Ending}
    (hev : (Effect.ended f.request how).laneEvent = some (.finish f.request)) (hne : how ≠ .clientGone) :
    Ledger orderly h (({ c with inFlight := none }.failTo f.request).emit (.ended f.request how)) := by
  refine hl.fail { c with inFlight := none } hev hne rfl rfl rfl ?_ nofun
  rw [lane_of_inFlight hslot]
  exact .finish

theorem Drain.ledger (hd : Drain c c') (hl : Ledger orderly h c) : Ledger orderly h c' := by
  induction hd with
  | done => exact hl
  | @lost c _ q rest hqueue _ ih =>
    refine ih (hl.fail (c.popped rest) rfl (by decide) rfl rfl rfl ?_ hl.awaiting)
    have hlane : c.lane = ⟨q :: rest, c.inFlight.map InFlight.request⟩ := by simp [lane, hqueue]
    rw [hlane]
    exact .drop

/-! ### Handlers keep the account -/

theorem Ledger.relink (hl : Ledger orderly h c) (link up : Bool) :
    Ledger orderly h { c with radioSendTx := link, radioUp := up } :=
  ⟨hl.lane, hl.tickets, hl.unique, hl.valid, hl.known, hl.awaiting, hl.fresh, hl.unanswered, hl.closed, hl.gone⟩

theorem Accounted.begin {frontend : List (List FrontendOp)} (ha : Accounted orderly h c) :
    Ledger orderly h (c.begin frontend) := by
  unfold Ledger
  rw [show (c.begin frontend).out = [] from rfl, List.append_nil]
  exact ⟨ha.lane, ha.tickets, ha.unique, ⟨ha.valid.born, ha.valid.nodup⟩, ha.known, ha.awaiting, ha.fresh,
    ha.unanswered, ha.closed, ha.gone⟩

theorem Routed.ledger (hr : Routed env code frame c c') (hcode : frame.head? = some code) (hl : Ledger orderly h c) :
    Ledger orderly h c' := by
  cases hr with
  | finish f hslot hends hm => exact (hm.mono fun _ => trivial).ledger (hl.finish hslot hcode hends)
  | part f hslot hends heq => exact heq ▸ hl.part hslot hcode hends
  | other _ hm => exact (hm.mono fun _ => trivial).ledger hl

theorem handleRadioRx_ledger (hs : c.handleRadioRx env frame = .ok c') (hl : Ledger orderly h c) :
    Ledger orderly h c' := by
  rcases handleRadioRx_routed hs with ⟨-, rfl⟩ | ⟨code, rest, c₁, rfl, hcache, hr⟩
  · exact hl
  · exact hr.ledger rfl ((hl.side (t := none) (cacheResponse_kept hcache)).side (t := none) recordRaw_still.toKept)

theorem checkInFlightTimeout_ledger (hl : Ledger orderly h c) : Ledger orderly h (c.checkInFlightTimeout env) := by
  rcases checkInFlightTimeout_cases c env with heq | ⟨f, hslot, -, hm, -⟩
  · exact heq.symm ▸ hl
  · exact (hm.mono fun _ => trivial).ledger (hl.free hslot rfl (by decide))

theorem unlinked_ledger (hl : Ledger orderly h c) : Ledger orderly h c.unlinked := by
  unfold unlinked
  dsimp only
  split
  · rename_i f hslot
    exact (hl.relink false false).free hslot rfl (by decide)
  · exact hl.relink false false

theorem unlinked_free : c.unlinked.inFlight = none := by
  unfold unlinked
  dsimp only
  split
  · exact failTo_still.slot
  · assumption

theorem Drain.done_free (hd : Drain c c') (hfree : c.inFlight = none) : c'.inFlight = none ∧ c'.pendingQueue = [] := by
  induction hd with
  | done hqueue => exact ⟨hfree, hqueue⟩
  | lost _ _ ih => exact ih (failTo_still.slot.trans hfree)

theorem Attempted.ledger {a : Attempt} {ok : Bool} (ha : Attempted c a ok c') (hfree : c.inFlight = none)
    (hqueue : c.pendingQueue = []) (hl : Ledger orderly h c) : Ledger orderly h c' ∧
      (ok = false → c'.inFlight = none ∧ c'.pendingQueue = []) ∧ (a.syncEnv.writerOpen = true → c'.Idle) := by
  have hlink : Ledger orderly h { c with radioSendTx := true } := hl.relink true c.radioUp
  cases ha with
  | unconnected => exact ⟨hl, fun _ => ⟨hfree, hqueue⟩, fun _ _ => hqueue⟩
  | uninitialized hs =>
    have hqueue' := hs.queue.trans hqueue
    exact ⟨(hlink.side hs.toKept).relink false _, fun _ => ⟨hs.slot.trans hfree, hqueue'⟩, fun _ _ => hqueue'⟩
  | @synced c₁ hs =>
    have hfree' := hs.slot.trans hfree
    have hqueue' := hs.queue.trans hqueue
    have hmoves : Moves orderly a.syncEnv none c₁ (c₁.syncFromRadio a.syncEnv) := syncFromRadio_moves hfree' hqueue'
    refine ⟨(hmoves.ledger (hlink.side hs.toKept)).relink _ true, nofun, fun hopen => ?_⟩
    exact syncFromRadio_idle hfree' hqueue' (by simp [canSend, hs.link, hopen])

theorem reconnectLoop_ledger {attempts : List Attempt} (hs : c.reconnectLoop attempts = .ok c')
    (hfree : c.inFlight = none) (hqueue : c.pendingQueue = []) (hl : Ledger orderly h c) :
    Ledger orderly h c' ∧ ((∀ a ∈ attempts, a.syncEnv.writerOpen = true) → c'.Idle) := by
  induction attempts generalizing c with
  | nil =>
    cases hs
    exact ⟨hl, fun _ _ => hqueue⟩
  | cons a rest ih =>
    obtain ⟨⟨ok, c₁⟩, hattempt, hs⟩ := Except.of_bind_eq_ok hs
    obtain ⟨hl₁, hfailed, hidle⟩ := (attemptRadio_attempted hattempt).ledger hfree hqueue hl
    cases ok with
    | true =>
      cases hs
      exact ⟨hl₁, fun hopen => hidle (hopen a List.mem_cons_self)⟩
    | false =>
      obtain ⟨hfree₁, hqueue₁⟩ := hfailed rfl
      obtain ⟨hl', hidle'⟩ := ih hs hfree₁ hqueue₁ hl₁
      exact ⟨hl', fun hopen => hidle' fun a ha => hopen a (List.mem_cons_of_mem _ ha)⟩

theorem reconnectRadio_ledger {attempts : List Attempt} (hs : c.reconnectRadio attempts = .ok c')
    (hl : Ledger orderly h c) :
    Ledger orderly h c' ∧ ((∀ a ∈ attempts, a.syncEnv.writerOpen = true) → c'.Idle) := by
  obtain ⟨hfree, hqueue⟩ := failAll_drain.done_free (unlinked_free (c := c))
  exact reconnectLoop_ledger hs hfree hqueue (failAll_drain.ledger (unlinked_ledger hl))

end

/-! ### Runs keep the account -/

/-- The writer is open whenever the sync begins. -/
def Event.SyncOpen : Event → Prop
  | .disconnected attempts => ∀ a ∈ attempts, a.syncEnv.writerOpen = true
  | _ => True

section
variable {orderly : Prop} {h : List Effect} {c c' : Core} {frontend : List (List FrontendOp)} {e : Event}
  {p : Core → List (List FrontendOp) → Event → Prop}

theorem handle_ledger (hs : c.handle e = .ok c') (hl : Ledger orderly h c) (hidle : orderly → c.Idle)
    (hopen : orderly → e.SyncOpen) : Ledger orderly h c' ∧ (orderly → c'.Idle) := by
  cases e with
  | command env cmd =>
    have hw := handleClientCommand_works hs hl.valid
    exact ⟨(hw.moves.mono hidle).ledger hl, hw.idle ∘ hidle⟩
  | radio env frame => exact ⟨handleRadioRx_ledger hs hl, handleRadioRx_idle hs ∘ hidle⟩
  | timeoutTick env =>
    cases hs
    refine ⟨checkInFlightTimeout_ledger hl, fun ho => ?_⟩
    rcases checkInFlightTimeout_cases c env with heq | ⟨f, -, -, -, hidle'⟩
    · exact heq.symm ▸ hidle ho
    · exact hidle'
  | maintenanceTick env =>
    cases hs
    have hw : Works env c (c.resync env) := resync_works
    have hkept : Kept (Effect.Side none) (c.resync env) (c.runMaintenance env) := maintain_kept
    exact ⟨((hw.moves.mono hidle).ledger hl).side hkept, fun ho => hkept.idle (hw.idle (hidle ho))⟩
  | disconnected attempts =>
    obtain ⟨hl', hidle'⟩ := reconnectRadio_ledger hs hl
    exact ⟨hl', fun ho => hidle' (hopen ho)⟩
  | idle =>
    cases hs
    have hstill : Still (Effect.Side none) c c.lockClients := lockClients_still
    exact ⟨hl.side hstill.toKept, fun ho => hstill.idle (hidle ho)⟩

theorem Run.ledger (hr : Run p c h c') {h₀ : List Effect} (hl : Accounted orderly h₀ c) (hidle : orderly → c.Idle)
    (hopen : ∀ c frontend e, orderly → p c frontend e → e.SyncOpen) :
    Accounted orderly (h₀ ++ h) c' ∧ (orderly → c'.Idle) := by
  induction hr with
  | refl => exact ⟨by simpa using hl, hidle⟩
  | @step c₁ c₂ h frontend e _ hp hs ih =>
    obtain ⟨hl₁, hidle₁⟩ := ih
    have hbegin : Ledger orderly (h₀ ++ h) (c₁.begin frontend) := hl₁.begin
    have hstep := handle_ledger hs hbegin hidle₁ fun ho => hopen c₁ frontend e ho hp
    exact ⟨by rw [← List.append_assoc]; exact hstep.1, hstep.2⟩

theorem new_accounted {config : Config} {db : NodeState} : Accounted orderly [] (Core.new config db) :=
  ⟨.refl _, List.forall_mem_nil _, List.nodup_nil, ⟨List.forall_mem_nil _, List.nodup_nil⟩,
    List.forall_mem_nil _, nofun, List.forall_mem_nil _, List.forall_mem_nil _, fun _ _ h => absurd h List.not_mem_nil,
    fun _ h => absurd h List.not_mem_nil⟩

/-- The account of every reachable state, and a queue that never stalls where the writer is open for each
    sync. -/
theorem ReachableWith.accounted {q : Attempt → Prop} (hr : ReachableWith q p h c)
    (hq : orderly → ∀ a, q a → a.syncEnv.writerOpen = true)
    (hopen : ∀ c frontend e, orderly → p c frontend e → e.SyncOpen) :
    Accounted orderly h c ∧ (orderly → c.Idle) := by
  obtain ⟨config, db, env, first, attempts, c₀, h', hfirst, hattempts, hstart, hrun, rfl⟩ := hr
  obtain ⟨⟨ok, c₁⟩, hattempt, hstart⟩ := Except.of_bind_eq_ok hstart
  have hnew : Ledger orderly [] (Core.new config db) := new_accounted
  obtain ⟨hl₁, -, hidle₁⟩ := (attemptRadio_attempted hattempt).ledger rfl rfl hnew
  obtain ⟨c₂, h₂, hrestore⟩ : ∃ c₂, (Ledger orderly [] c₂ ∧ (orderly → c₂.Idle)) ∧ c₂.restoreBlobs env = .ok c₀ := by
    cases ok with
    | true => exact ⟨c₁, ⟨hl₁, fun ho => hidle₁ (hq ho first hfirst)⟩, hstart⟩
    | false =>
      obtain ⟨c₂, hreconnect, hrestore⟩ := Except.of_bind_eq_ok hstart
      obtain ⟨hl₂, hidle₂⟩ := reconnectRadio_ledger hreconnect hl₁
      exact ⟨c₂, ⟨hl₂, fun ho => hidle₂ fun a ha => hq ho a (hattempts a ha)⟩, hrestore⟩
  have hblobs : Still (Effect.Side none) c₂ c₀ := restoreBlobs_still hrestore
  have hl₀ : Accounted orderly c₀.out c₀ := h₂.1.side hblobs.toKept
  exact hrun.ledger hl₀ (fun ho => hblobs.idle (h₂.2 ho)) hopen

end

/-! ### One outcome for each request -/

/-- Where a request is, and what its client was sent for it. -/
structure Outcome (h : List Effect) (c : Core) (q : Queued) : Prop where
  handed : (handedOver h).count q = 1
  /-- It waits, or is in flight, or ended: one of them, and once. -/
  place : c.pendingQueue.count q + (c.inFlight.map InFlight.request).toList.count q + (endings h q).length = 1
  sent : (sentToRadio h).count q ≤ 1
  unanswered : q ∈ c.pendingQueue ∨ c.inFlight.map InFlight.request = some q → answers h q = 0
  answered : ∀ how ∈ endings h q, how ≠ .clientGone → answers h q ≤ 1 ∧
    ∀ cid, q.clientId = some cid → cid ∈ c.clients.channels → answers h q = 1
  discarded : .clientGone ∈ endings h q → answers h q = 0 ∧ ∃ cid, q.clientId = some cid ∧ cid ∉ c.clients.channels

section
variable {orderly : Prop} {h h₁ h₂ : List Effect} {c : Core} {q : Queued}

theorem Accounted.outcome (ha : Accounted orderly h c) (hq : q ∈ handedOver h) : Outcome h c q := by
  have hone := List.nodup_iff_count_le_one.mp (List.Nodup.of_map _ ha.unique) q
  have hpos := List.count_pos_iff.mpr hq
  have hpresent := ha.lane.count_present q
  have hwaiting := ha.lane.count_waiting q
  simp only [submitted_laneEvents, started_laneEvents, count_left_laneEvents, Lane.present, Lane.empty,
    Option.toList_none, List.append_nil, List.count_nil, List.count_append] at hpresent hwaiting
  refine ⟨by omega, ?_, by omega, fun hin => ha.unanswered q ?_, fun how hhow => ha.closed q how (mem_endings.mp hhow),
    fun hgone => ha.gone q (mem_endings.mp hgone)⟩
  · simp only [Core.lane] at hpresent
    omega
  · exact List.mem_append.mpr (hin.imp_right fun h => by simp [Core.lane, h])

/-- What is in flight was sent. -/
theorem Accounted.sent_of_slot (ha : Accounted orderly h c) {f : InFlight} (hslot : c.inFlight = some f) :
    .radio f.request ∈ h := by
  have hbalance := ha.lane.balance
  rw [started_laneEvents, show c.lane.serving = some f.request by simp [Core.lane, hslot]] at hbalance
  have hmem : f.request ∈ (Lane.empty : Lane Queued).serving.toList ++ sentToRadio h :=
    hbalance ▸ List.mem_append_right _ (by simp)
  exact mem_sentToRadio.mp hmem

/-- The slot is filled only once what the radio was sent before is terminated. -/
theorem Accounted.terminated_before (ha : Accounted orderly (h₁ ++ .radio q :: h₂) c) :
    ∀ q' ∈ sentToRadio h₁, q' ∈ terminated h₁ := by
  have hlane := ha.lane
  rw [show laneEvents (h₁ ++ .radio q :: h₂) = laneEvents h₁ ++ .start q :: laneEvents h₂ by
    simp [laneEvents, Effect.laneEvent]] at hlane
  simpa only [started_laneEvents, finished_laneEvents] using hlane.finished_before_start

/-- Every request handed over has one outcome in every reachable state, and a request is sent only once the
    slot is free. -/
theorem request_outcome (hr : Reachable h c) : (∀ q ∈ handedOver h, Outcome h c q) ∧
    ∀ h₁ q h₂, h = h₁ ++ .radio q :: h₂ → ∀ q' ∈ sentToRadio h₁, q' ∈ terminated h₁ := by
  obtain ⟨ha, -⟩ : Accounted False h c ∧ (False → c.Idle) := hr.accounted False.elim fun _ _ _ => False.elim
  refine ⟨fun q => ha.outcome, fun h₁ q h₂ heq => ?_⟩
  subst heq
  exact ha.terminated_before

/-- A client asks for the battery while the sync is in flight. -/
theorem request_outcome_battery : ∃ h c, Reachable h c ∧ Outcome h c ⟨some 1, .mk' 0x14 [], 41⟩ := by
  have hr := ReachableWith.of_turns (l := [([[.connect]], .command sound ⟨1, 5000, [0x14]⟩)]) (q := fun _ => True)
    (p := fun _ _ _ => True) (show booted .off = .ok _ from rfl) rfl trivial fun _ _ _ => trivial
  exact ⟨_, _, hr, (request_outcome hr).1 _ (by decide)⟩

/-- A queue whose syncs find the writer open holds nothing while the radio is free, and sends in the order of
    the requests, one at a time. -/
theorem queue_fifo (hr : ReachableWith (fun a => a.syncEnv.writerOpen = true) (fun _ _ e => e.SyncOpen) h c) :
    (c.inFlight = none → c.pendingQueue = []) ∧
    sentToRadio h ++ c.pendingQueue = (handedOver h).filter (fun q => decide (q ∉ leftOut h)) ∧
    (∀ q, .ended q .clientGone ∈ h → ∃ cid, q.clientId = some cid ∧ cid ∉ c.clients.channels) ∧
    ∀ h₁ q h₂, h = h₁ ++ .radio q :: h₂ → ∀ q' ∈ sentToRadio h₁, q' ∈ terminated h₁ := by
  obtain ⟨ha, hidle⟩ : Accounted True h c ∧ (True → c.Idle) := hr.accounted (fun _ _ h => h) fun _ _ _ _ h => h
  refine ⟨hidle trivial, ?_, fun q hq => (ha.gone q hq).2, fun h₁ q h₂ heq => ?_⟩
  · have horder := ha.lane.order (submitted_laneEvents ▸ List.Nodup.of_map _ ha.unique)
    rwa [started_laneEvents, submitted_laneEvents, dropped_laneEvents] at horder
  · subst heq
    exact ha.terminated_before

theorem queue_fifo_battery : ∃ h c, (handedOver h).length = 42 ∧
    sentToRadio h ++ c.pendingQueue = (handedOver h).filter (fun q => decide (q ∉ leftOut h)) ∧
    ReachableWith (fun a => a.syncEnv.writerOpen = true) (fun _ _ e => e.SyncOpen) h c := by
  have hr := ReachableWith.of_turns (l := [([[.connect]], .command sound ⟨1, 5000, [0x14]⟩)])
    (q := fun a => a.syncEnv.writerOpen = true) (p := fun _ _ e => e.SyncOpen)
    (show booted .off = .ok _ from rfl) rfl rfl (by simp [Event.SyncOpen])
  exact ⟨_, _, rfl, (queue_fifo hr).2.1, hr⟩

end
end Core
end CoreSplitter
