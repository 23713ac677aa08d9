import CoreSplitter.Theorems.Queue

/-! What the proxy asks the radio of its own accord: to read contacts and channels, and nothing else. -/

namespace CoreSplitter
open Bytes

namespace Core

inductive OwnRead : Command → Prop
  | contacts : OwnRead getContacts
  | channel (idx : UInt8) : OwnRead (getChannel idx)
  | contact (key : Bytes) (hlen : key.length = 32) : OwnRead (.mk' 0x1E key)

theorem OwnRead.length_le {p : Command} (h : OwnRead p) : p.bytes.length ≤ 33 := by
  cases h with
  | contacts => exact (by decide : 1 ≤ 33)
  | channel idx => exact (by decide : 2 ≤ 33)
  | contact key hlen => exact Nat.le_of_eq (congrArg (· + 1) hlen)

structure IsOwn (q : Queued) : Prop where
  client : q.clientId = none
  read : OwnRead q.payload

/-- Every request that `c'` handed over beyond `c` is one of the proxy's own. -/
def AsksOwn (c c' : Core) : Prop := ∃ es, c'.out = c.out ++ es ∧ ∀ q ∈ handedOver es, IsOwn q

section
variable {p : Effect → Prop} {c c₁ c₂ : Core} {env : Env} {q : Queued} {qs : List Queued} {es : List Effect}
  {f : InFlight} {code : UInt8} {frame : Bytes} {t : Option Ticket}

theorem handedOver_eq_nil (h : ∀ e ∈ es, e.laneEvent = none) : handedOver es = [] := by
  rw [← submitted_laneEvents, laneEvents_eq_nil h]
  rfl

theorem AsksOwn.of_out (hout : c₁.out = c.out ++ es) (hnone : handedOver es = []) : AsksOwn c c₁ :=
  ⟨es, hout, by rw [hnone]; exact List.forall_mem_nil _⟩

theorem AsksOwn.of_eq (hout : c₁.out = c.out) : AsksOwn c c₁ := .of_out (by rw [hout, List.append_nil]) rfl

theorem AsksOwn.refl : AsksOwn c c := .of_eq rfl

theorem AsksOwn.trans (h₁ : AsksOwn c c₁) (h₂ : AsksOwn c₁ c₂) : AsksOwn c c₂ := by
  obtain ⟨es₁, hout₁, hes₁⟩ := h₁
  obtain ⟨es₂, hout₂, hes₂⟩ := h₂
  refine ⟨es₁ ++ es₂, by rw [hout₂, hout₁, List.append_assoc], fun q hq => ?_⟩
  rw [handedOver_append] at hq
  exact (List.mem_append.mp hq).elim (hes₁ q) (hes₂ q)

theorem Kept.asksOwn (h : Kept p c c₁) (hp : ∀ e, p e → e.laneEvent = none) : AsksOwn c c₁ := by
  obtain ⟨es, hout, hes⟩ := h.out
  exact .of_out hout (handedOver_eq_nil fun e he => hp e (hes e he))

theorem Still.asksOwn (h : Still (Effect.Side t) c c₁) : AsksOwn c c₁ := h.toKept.asksOwn fun _ he => he.lane

theorem pushBack_asksOwn {payload : Command} (h : OwnRead payload) : AsksOwn c (c.pushBack none payload) :=
  ⟨[.handed ⟨none, payload, c.nextTicket⟩], rfl, fun _ hq => List.mem_singleton.mp hq ▸ ⟨rfl, h⟩⟩

/-! ### The queue goes on -/

theorem failTo_asksOwn : AsksOwn c (c.failTo q) := failTo_still.toKept.asksOwn fun e he => by
  obtain ⟨_, _, _, _, -, rfl⟩ := he
  rfl

theorem emit_asksOwn {e : Effect} (h : ∀ q, e ≠ .handed q) : AsksOwn c (c.emit e) :=
  ⟨[e], rfl, fun _ hq => absurd (List.mem_singleton.mp (mem_handedOver.mp hq)).symm (h _)⟩

theorem ended_asksOwn {how : Ending} : AsksOwn c (c.emit (.ended q how)) := emit_asksOwn nofun

theorem dispatchToRadio_asksOwn : AsksOwn c (c.dispatchToRadio env q) := by
  rw [dispatchToRadio_eq]
  split
  · have hsent : (c.startWith env q).out = c.out ++ [.radio q] := (invalidate_kept (c := c.emit (.radio q))).silent
    exact .of_out hsent rfl
  · exact failTo_asksOwn.trans ended_asksOwn

theorem advanceFrom_asksOwn : AsksOwn c (c.advanceFrom env qs) := by
  induction qs generalizing c with
  | nil => exact .of_eq rfl
  | cons q rest ih =>
    have hlook : AsksOwn c ((c.popped rest).isEligible q).2 := by
      have hstill : Still (Effect.Side none) (c.popped rest) ((c.popped rest).isEligible q).2 := isEligible_still
      exact AsksOwn.trans (.of_eq rfl) hstill.asksOwn
    simp only [advanceFrom, show { c with pendingQueue := rest } = c.popped rest from rfl]
    refine hlook.trans ?_
    split
    · exact ended_asksOwn.trans ih
    · split
      · exact dispatchToRadio_asksOwn
      · exact dispatchToRadio_asksOwn.trans ih

theorem advanceQueue_asksOwn : AsksOwn c (c.advanceQueue env) := advanceFrom_asksOwn

theorem advanceFromSync_asksOwn : AsksOwn c (c.advanceFromSync env qs) := by
  induction qs generalizing c with
  | nil => exact .of_eq rfl
  | cons q rest ih =>
    have hlook : AsksOwn c ((c.popped rest).isEligible q).2 := by
      have hstill : Still (Effect.Side none) (c.popped rest) ((c.popped rest).isEligible q).2 := isEligible_still
      exact AsksOwn.trans (.of_eq rfl) hstill.asksOwn
    simp only [advanceFromSync, show { c with pendingQueue := rest } = c.popped rest from rfl]
    refine hlook.trans ?_
    split
    · exact ended_asksOwn.trans ih
    · split
      · exact ended_asksOwn
      · split
        · exact failTo_asksOwn.trans ended_asksOwn
        · exact .of_out rfl rfl

theorem syncFromRadio_asksOwn : AsksOwn c (c.syncFromRadio env) := by
  have hchannels (l : List Nat) (c : Core) :
      AsksOwn c (l.foldl (fun c idx => c.pushBack none (getChannel (UInt8.ofNat idx))) c) := by
    induction l generalizing c with
    | nil => exact .refl
    | cons idx l ih => exact (pushBack_asksOwn (.channel _)).trans (ih _)
  have hqueued : AsksOwn c c.syncQueued := (pushBack_asksOwn .contacts).trans (hchannels _ _)
  rw [syncFromRadio_eq]
  split
  · exact hqueued.trans advanceFromSync_asksOwn
  · exact hqueued

/-! ### The handlers -/

theorem afterAccepted_asksOwn : AsksOwn c (c.afterAccepted env f) := by
  unfold afterAccepted
  dsimp only
  split
  · split
    · split <;> exact .of_eq rfl
    · exact .refl
  · split
    · exact pushBack_asksOwn (.contact _ (slice_length _))
    · exact .refl
  · split
    · exact pushBack_asksOwn (.contact _ (slice_length _))
    · exact .refl
  · exact pushBack_asksOwn .contacts
  · exact .of_eq rfl
  · exact .refl

theorem complete_asksOwn : AsksOwn c (c.complete env f code) := by
  have hended : AsksOwn c ({ c with inFlight := none }.emit (.ended f.request (.replied code))) :=
    AsksOwn.trans (.of_eq rfl) ended_asksOwn
  refine hended.trans ?_
  unfold complete
  dsimp only
  split
  · rw [onCommandAccepted_eq]
    have haccepted {d : Core} : d.AsksOwn (d.acceptance f) := acceptance_still.asksOwn
    exact ((haccepted.trans afterAccepted_asksOwn).trans echoAccepted_still.asksOwn).trans advanceQueue_asksOwn
  · exact advanceQueue_asksOwn

theorem refreshOnPush_asksOwn : AsksOwn c (c.refreshOnPush env code frame) := by
  unfold refreshOnPush
  split
  · have hqueued {key : Bytes} (hlen : key.length = 32) : AsksOwn c (c.queueContactRefresh key) :=
      pushBack_asksOwn (.contact _ hlen)
    dsimp only
    split
    · exact (hqueued (slice_length _)).trans advanceQueue_asksOwn
    · exact hqueued (slice_length _)
  · exact .refl

theorem routeUnmatched_asksOwn : AsksOwn c (c.routeUnmatched env code frame) := by
  have hack : AsksOwn c (c.tryRouteAck code frame).2 := tryRouteAck_still.toKept.asksOwn fun _ he => he.lane
  unfold routeUnmatched
  dsimp only
  split
  · exact hack
  · split
    · exact (hack.trans refreshOnPush_asksOwn).trans (emit_asksOwn nofun)
    · exact hack

theorem routeFrame_asksOwn : AsksOwn c (c.routeFrame env code frame) := by
  have hreply (f : InFlight) : AsksOwn c (c.deliverReply env f code frame) :=
    deliverReply_still.toKept.asksOwn fun _ he => he.lane
  rw [routeFrame_eq]
  split
  · exact routeUnmatched_asksOwn
  · rename_i f _
    split
    · exact (hreply f).trans complete_asksOwn
    · exact (hreply f).trans (.of_eq rfl)
    · exact routeUnmatched_asksOwn

theorem handleRadioRx_asksOwn (h : c.handleRadioRx env frame = .ok c₁) : AsksOwn c c₁ := by
  unfold handleRadioRx at h
  split at h
  · cases h
    exact .refl
  · obtain ⟨-, -, h⟩ := Except.of_bind_eq_ok h
    obtain ⟨c₂, hcache, h⟩ := Except.of_bind_eq_ok h
    cases h
    have hcached : Kept (Effect.Side none) c c₂ := cacheResponse_kept hcache
    have hrecorded (code : UInt8) (frame : Bytes) : Still (Effect.Side none) c₂ (c₂.recordRaw env code frame) :=
      recordRaw_still
    exact ((hcached.asksOwn fun _ he => he.lane).trans (hrecorded _ _).asksOwn).trans routeFrame_asksOwn

theorem checkInFlightTimeout_asksOwn : AsksOwn c (c.checkInFlightTimeout env) := by
  unfold checkInFlightTimeout
  split
  · exact .refl
  · split
    · have hfailed (f : InFlight) : AsksOwn c ({ c with inFlight := none }.failTo f.request) :=
        AsksOwn.trans (.of_eq rfl) failTo_asksOwn
      exact ((hfailed _).trans ended_asksOwn).trans advanceQueue_asksOwn
    · exact .refl

theorem resync_asksOwn : AsksOwn c (c.resync env) := by
  unfold resync
  dsimp only
  split
  · split
    · exact (pushBack_asksOwn .contacts).trans advanceQueue_asksOwn
    · exact pushBack_asksOwn .contacts
  · exact .refl

theorem failFrom_asksOwn : AsksOwn c (c.failFrom qs) := by
  induction qs generalizing c with
  | nil => exact .of_eq rfl
  | cons q rest ih =>
    have hfailed : AsksOwn c ((c.popped rest).failTo q) := AsksOwn.trans (.of_eq rfl) failTo_asksOwn
    exact (hfailed.trans ended_asksOwn).trans ih

theorem failAll_asksOwn : AsksOwn c c.failAll := by
  have hunlinked : AsksOwn c c.unlinked := by
    unfold unlinked
    dsimp only
    split
    · have hfailed (f : InFlight) :
          AsksOwn c ({ c with radioSendTx := false, radioUp := false, inFlight := none }.failTo f.request) :=
        AsksOwn.trans (.of_eq rfl) failTo_asksOwn
      exact (hfailed _).trans ended_asksOwn
    · exact .of_eq rfl
  exact hunlinked.trans failFrom_asksOwn

theorem Attempted.asksOwn {a : Attempt} {ok : Bool} (h : Attempted c a ok c₁) : AsksOwn c c₁ := by
  cases h with
  | unconnected => exact .refl
  | uninitialized h => exact (AsksOwn.trans (.of_eq rfl) h.asksOwn).trans (.of_eq rfl)
  | synced h => exact ((AsksOwn.trans (.of_eq rfl) h.asksOwn).trans syncFromRadio_asksOwn).trans (.of_eq rfl)

theorem reconnectLoop_asksOwn {attempts : List Attempt} (h : c.reconnectLoop attempts = .ok c₁) : AsksOwn c c₁ := by
  induction attempts generalizing c with
  | nil =>
    cases h
    exact .refl
  | cons a attempts ih =>
    obtain ⟨⟨ok, c₂⟩, hattempt, h⟩ := Except.of_bind_eq_ok h
    have hfirst : AsksOwn c c₂ := (attemptRadio_attempted hattempt).asksOwn
    dsimp only at h
    split at h
    · cases h
      exact hfirst
    · exact hfirst.trans (ih h)

/-- Only a client's command makes the proxy ask the radio anything else. -/
theorem handle_asksOwn {e : Event} (h : c.handle e = .ok c₁) (he : ∀ env cmd, e ≠ .command env cmd) : AsksOwn c c₁ := by
  cases e with
  | command env cmd => exact absurd rfl (he env cmd)
  | radio env frame => exact handleRadioRx_asksOwn h
  | timeoutTick env =>
    cases h
    exact checkInFlightTimeout_asksOwn
  | maintenanceTick env =>
    cases h
    exact resync_asksOwn.trans (.of_eq rfl)
  | disconnected attempts => exact failAll_asksOwn.trans (reconnectLoop_asksOwn h)
  | idle =>
    cases h
    exact .of_eq rfl

theorem start_asksOwn {config : Config} {db : NodeState} {first : Attempt} {attempts : List Attempt}
    (h : (Core.new config db).start env first attempts = .ok c) : AsksOwn (Core.new config db) c := by
  obtain ⟨⟨ok, c₁⟩, hfirst, h⟩ := Except.of_bind_eq_ok h
  have hattempted : AsksOwn (Core.new config db) c₁ := (attemptRadio_attempted hfirst).asksOwn
  have hrestored {c₂ : Core} (h : c₂.restoreBlobs env = .ok c) : AsksOwn c₂ c :=
    (restoreBlobs_still (t := none) h).asksOwn
  cases ok with
  | true => exact hattempted.trans (hrestored h)
  | false =>
    obtain ⟨c₂, hlinked, h⟩ := Except.of_bind_eq_ok h
    exact (hattempted.trans (failAll_asksOwn.trans (reconnectLoop_asksOwn hlinked))).trans (hrestored h)

end
end Core
end CoreSplitter
