import CoreSplitter.Theorems.Fanout
import CoreSplitter.Theorems.Infos
import CoreSplitter.Theorems.Service
import CoreSplitter.World.Replies

/-! What the proxy asks the radio for on its own account: a request of its own is sent once it is its turn, and whatever
    tells that a contact changed makes the proxy ask for that contact. -/

namespace CoreSplitter
open Bytes

namespace Command

/-- The contact that a GET_CONTACT_BY_KEY asks for. -/
def askedContact (p : Command) : Option Bytes :=
  if p.code = 0x1E ∧ 33 ≤ p.bytes.length then some (Core.contactKey p.bytes) else none

/-- The reply to it carries the contact as the radio holds it, if it does. -/
def Reads (p : Command) (key : Bytes) : Prop := p.bytes = [0x04] ∨ p.askedContact = some key

/-- Its acceptance may change the contact: ADD_UPDATE_CONTACT and RESET_PATH name it, IMPORT_CONTACT can be about
    any. -/
def Changes (p : Command) (key : Bytes) : Prop :=
  (p.code = 0x09 ∨ p.code = 0x0D) ∧ 33 ≤ p.bytes.length ∧ Core.contactKey p.bytes = key ∨ p.code = 0x12

instance {p : Command} {key : Bytes} : Decidable (p.Reads key) := inferInstanceAs (Decidable (_ ∨ _))
instance {p : Command} {key : Bytes} : Decidable (p.Changes key) := inferInstanceAs (Decidable (_ ∨ _))

end Command

/-- ADVERT or PATH_UPDATE: the radio just updated the contact. -/
def Announces (frame key : Bytes) : Prop :=
  (frame.head? = some 0x80 ∨ frame.head? = some 0x81) ∧ 33 ≤ frame.length ∧ Core.contactKey frame = key

instance {frame key : Bytes} : Decidable (Announces frame key) := inferInstanceAs (Decidable (_ ∧ _))

namespace Core

/-- The writer takes what the turn sends. -/
def Event.Sends : Event → Prop
  | .command env _ | .radio env _ | .timeoutTick env | .maintenanceTick env => env.writerOpen = true
  | .disconnected attempts => ∀ a ∈ attempts, a.syncEnv.writerOpen = true
  | .idle => True

/-- The proxy asks the radio for the contact on its own account. -/
def Asks (q : Queued) (key : Bytes) : Prop := q.clientId = none ∧ q.payload.Reads key

section
variable {orderly : Prop} {h es : List Effect} {c c₁ c' : Core} {env : Env} {t : Option Ticket} {f : InFlight}
  {q : Queued} {code : UInt8} {frame key : Bytes} {payload : Command} {e : Event}

instance : (e : Event) → Decidable e.Sends
  | .command env _ | .radio env _ | .timeoutTick env | .maintenanceTick env =>
    inferInstanceAs (Decidable (env.writerOpen = true))
  | .disconnected attempts => inferInstanceAs (Decidable (∀ a ∈ attempts, a.syncEnv.writerOpen = true))
  | .idle => isTrue trivial

theorem Event.Sends.syncOpen (h : e.Sends) : e.SyncOpen := by
  cases e with
  | disconnected => exact h
  | command | radio | timeoutTick | maintenanceTick | idle => trivial

theorem Event.Sends.writerOpen (h : e.Sends) (hlocal : e.isLocal = true) : e.WriterOpen := by
  cases e with
  | radio | disconnected => cases hlocal
  | command | timeoutTick | maintenanceTick => exact h
  | idle => trivial

/-! ### Requests without a client -/

/-- A request of the proxy itself that waits, or is handed over, waits on or is sent. -/
theorem Accounted.internal_kept (ha : Accounted orderly h c) (ha' : Accounted orderly (h ++ es) c') (hes : Unfailed es)
    (hq : q.clientId = none) (hin : q ∈ c.pendingQueue ∨ .handed q ∈ es) : q ∈ c'.pendingQueue ∨ .radio q ∈ es := by
  have hbefore := ha.lane.count_waiting q
  have hafter := ha'.lane.count_waiting q
  simp only [submitted_laneEvents, started_laneEvents, dropped_laneEvents, handedOver_append,
    sentToRadio_append, Lane.empty, Core.lane, List.count_append, List.count_nil] at hbefore hafter
  have hleft : (leftOut (h ++ es)).count q = (leftOut h).count q := by
    have hnone : q ∉ leftOut es := fun hleft => by
      rcases World.ended_of_leftOut hleft with hgone | hfailed | hdrained
      · obtain ⟨-, cid, hcid, -⟩ := ha'.gone q (List.mem_append_right _ hgone)
        rw [hq] at hcid
        cases hcid
      · exact (hes q).1 hfailed
      · exact (hes q).2 hdrained
    rw [leftOut, List.filterMap_append, List.count_append, show (es.filterMap _).count q = 0
      from List.count_eq_zero.mpr hnone]
    rfl
  have hpos : 0 < c.pendingQueue.count q + (handedOver es).count q := by
    rcases hin with hin | hin
    · exact Nat.add_pos_left (List.count_pos_iff.mpr hin) _
    · exact Nat.add_pos_right _ (List.count_pos_iff.mpr (mem_handedOver.mpr hin))
  rcases Nat.eq_zero_or_pos (c'.pendingQueue.count q) with hzero | hwaits
  · exact Or.inr (mem_sentToRadio.mp (List.count_pos_iff.mp (by omega)))
  · exact Or.inl (List.count_pos_iff.mp hwaits)

/-- Where the writer is open, a frame of the radio makes nothing fail. -/
theorem handleRadioRx_unfailed (hs : c.handleRadioRx env frame = .ok c') (hsend : c.canSend env = true) :
    ∃ es, c'.out = c.out ++ es ∧ Unfailed es := by
  have hlane {p : Effect → Prop} {c c' : Core} (hk : Kept p c c') (hp : ∀ e, p e → e.laneEvent = none) :
      ∃ es, c'.out = c.out ++ es ∧ Unfailed es :=
    hk.out.imp fun es h => ⟨h.1, unfailed_of_lane fun e he => hp e (h.2 e he)⟩
  have htrans {c c₁ c' : Core} (h₁ : ∃ es, c₁.out = c.out ++ es ∧ Unfailed es)
      (h₂ : ∃ es, c'.out = c₁.out ++ es ∧ Unfailed es) : ∃ es, c'.out = c.out ++ es ∧ Unfailed es := by
    obtain ⟨es₁, hout₁, hes₁⟩ := h₁
    obtain ⟨es₂, hout₂, hes₂⟩ := h₂
    exact ⟨es₁ ++ es₂, by rw [hout₂, hout₁, List.append_assoc], hes₁.append hes₂⟩
  have hmoves {t : Option Ticket} {c c' : Core} (hm : Moves True env t c c') (hsend : c.canSend env = true) :
      ∃ es, c'.out = c.out ++ es ∧ Unfailed es :=
    hm.out.imp fun es h => ⟨h.1, unfailed_of_moves (t := t) fun e he => by simpa only [hsend] using h.2 e he⟩
  rcases handleRadioRx_routed hs with ⟨-, rfl⟩ | ⟨code, rest, c₁, rfl, hcache, hr⟩
  · exact ⟨[], by simp, fun _ => ⟨List.not_mem_nil, List.not_mem_nil⟩⟩
  · have hcached : Kept (Effect.Side none) c (c₁.recordRaw env code (code :: rest)) :=
      (cacheResponse_kept hcache).trans recordRaw_still.toKept
    refine htrans (hlane hcached fun _ he => he.lane) ?_
    have hsend : (c₁.recordRaw env code (code :: rest)).canSend env = true := by
      rw [canSend, hcached.link]
      exact hsend
    generalize c₁.recordRaw env code (code :: rest) = c₂ at hr hsend
    cases hr with
    | finish f _ _ hm =>
      have hstill : Still (Effect.OfReply f) c₂ (c₂.deliverReply env f code (code :: rest)) := deliverReply_still
      have hended :
          ∃ es, (c₂.finish env f code (code :: rest)).out = (c₂.deliverReply env f code (code :: rest)).out ++ es ∧
          Unfailed es := ⟨[.ended f.request (.replied code)], rfl, fun q => ⟨by simp, by simp⟩⟩
      refine htrans (htrans (hlane hstill.toKept fun _ he => he.lane) hended) (hmoves hm ?_)
      rw [canSend, show (c₂.finish env f code (code :: rest)).radioSendTx = c₂.radioSendTx from hstill.link]
      exact hsend
    | part f _ _ heq =>
      have hstill : Still (Effect.OfReply f) c₂ (c₂.deliverReply env f code (code :: rest)) := deliverReply_still
      rw [heq]
      have hunfailed : ∃ es, (c₂.deliverReply env f code (code :: rest)).out = c₂.out ++ es ∧ Unfailed es :=
        hlane hstill.toKept fun _ he => he.lane
      exact hunfailed
    | other _ hm => exact hmoves hm hsend

/-! ### The sync -/

theorem pushBacks_queue {payloads : List Command} :
    c.pendingQueue <+: (payloads.foldl (fun c payload => c.pushBack none payload) c).pendingQueue := by
  induction payloads generalizing c with
  | nil => exact List.prefix_refl _
  | cons payload payloads ih =>
    have hpush : c.pendingQueue <+: (c.pushBack none payload).pendingQueue := List.prefix_append _ _
    exact hpush.trans ih

/-- The sync begins with a GET_CONTACTS. -/
theorem syncFromRadio_lists (hfree : c.inFlight = none) (hqueue : c.pendingQueue = []) (hsend : c.canSend env = true) :
    ∃ q, .radio q ∈ (c.syncFromRadio env).out ∧ q.payload = getContacts := by
  obtain ⟨-, hslot, hlink, -⟩ := syncQueued_moves True env none hqueue
  have hall : c.syncQueued = ((List.range c.maxChannels.toNat).map fun idx => getChannel (UInt8.ofNat idx)).foldl
      (fun c payload => c.pushBack none payload) (c.pushBack none getContacts) := by
    rw [List.foldl_map]
    rfl
  obtain ⟨rest, hrest⟩ : (c.pushBack none getContacts).pendingQueue <+: c.syncQueued.pendingQueue :=
    hall ▸ pushBacks_queue
  have hfirst : (c.pushBack none getContacts).pendingQueue = [⟨none, getContacts, c.nextTicket⟩] := by
    simp [pushBack, hand, emit, hqueue]
  rw [hfirst] at hrest
  obtain ⟨hup, hopen⟩ : c.radioSendTx = true ∧ env.writerOpen = true := by simpa [canSend] using hsend
  have hup : c.syncQueued.radioSendTx = true := hlink.trans hup
  rw [syncFromRadio_eq, hslot, hfree, advanceQueueSync, ← hrest]
  exact ⟨⟨none, getContacts, c.nextTicket⟩, by simp [advanceFromSync, isEligible, emit, hup, hopen], rfl⟩

theorem Attempted.lists {a : Attempt} (h : Attempted c a true c') (hfree : c.inFlight = none)
    (hqueue : c.pendingQueue = []) (hopen : a.syncEnv.writerOpen = true) :
    ∃ q, .radio q ∈ c'.out ∧ q.payload = getContacts := by
  cases h with
  | synced h => exact syncFromRadio_lists (h.slot.trans hfree) (h.queue.trans hqueue) (by simp [canSend, h.link, hopen])

/-- A link that is made again begins with a GET_CONTACTS. -/
theorem reconnectLoop_lists {attempts : List Attempt} (hs : c.reconnectLoop attempts = .ok c')
    (hfree : c.inFlight = none) (hqueue : c.pendingQueue = []) (hdown : c.radioSendTx = false)
    (hopen : ∀ a ∈ attempts, a.syncEnv.writerOpen = true) (hup : c'.radioSendTx = true) :
    ∃ q, .radio q ∈ c'.out ∧ q.payload = getContacts := by
  induction attempts generalizing c with
  | nil =>
    cases hs
    rw [hdown] at hup
    cases hup
  | cons a rest ih =>
    obtain ⟨hopen₁, hopen⟩ := List.forall_mem_cons.mp hopen
    obtain ⟨⟨ok, c₁⟩, hattempt, hs⟩ := Except.of_bind_eq_ok hs
    have ha := attemptRadio_attempted hattempt
    cases ok with
    | true =>
      cases hs
      exact ha.lists hfree hqueue hopen₁
    | false =>
      obtain ⟨hfree₁, hqueue₁⟩ := ha.free_of_failed hfree hqueue
      have hdown₁ : c₁.radioSendTx = false := by cases ha <;> first | exact hdown | rfl
      exact ih hs hfree₁ hqueue₁ hdown₁ hopen

theorem reconnectRadio_lists {attempts : List Attempt} (hs : c.reconnectRadio attempts = .ok c')
    (hopen : ∀ a ∈ attempts, a.syncEnv.writerOpen = true) (hup : c'.radioSendTx = true) :
    ∃ q, .radio q ∈ c'.out ∧ q.payload = getContacts := by
  obtain ⟨hfree, hqueue⟩ := failAll_drain.done_free (unlinked_free (c := c))
  exact reconnectLoop_lists hs hfree hqueue failAll_link hopen hup

theorem start_lists {config : Config} {db : NodeState} {first : Attempt} {attempts : List Attempt}
    (hs : (Core.new config db).start env first attempts = .ok c') (hfirst : first.syncEnv.writerOpen = true)
    (hopen : ∀ a ∈ attempts, a.syncEnv.writerOpen = true) (hup : c'.radioSendTx = true) :
    ∃ q, .radio q ∈ c'.out ∧ q.payload = getContacts := by
  obtain ⟨⟨ok, c₁⟩, hattempt, hs⟩ := Except.of_bind_eq_ok hs
  have ha := attemptRadio_attempted hattempt
  have hblobs {c c' : Core} (h : c.restoreBlobs env = .ok c') (hup : c'.radioSendTx = true)
      (hlists : c.radioSendTx = true → ∃ q, .radio q ∈ c.out ∧ q.payload = getContacts) :
      ∃ q, .radio q ∈ c'.out ∧ q.payload = getContacts := by
    have hstill : Still (Effect.Side none) c c' := restoreBlobs_still h
    obtain ⟨es, hout, -⟩ := hstill.out
    exact (hlists (hstill.link.symm.trans hup)).imp fun q hq => ⟨by rw [hout]; exact List.mem_append_left _ hq.1, hq.2⟩
  cases ok with
  | true => exact hblobs hs hup fun _ => ha.lists rfl rfl hfirst
  | false =>
    obtain ⟨c₂, hreconnect, hs⟩ := Except.of_bind_eq_ok hs
    exact hblobs hs hup (reconnectRadio_lists hreconnect hopen)

/-! ### Contacts that changed -/

/-- A frame is cached, and then routed. -/
theorem handleRadioRx_cases (hs : c.handleRadioRx env frame = .ok c') : frame = [] ∧ c' = c ∨
    ∃ code rest c₁, frame = code :: rest ∧ Kept (Effect.Side none) c c₁ ∧
      c' = c₁.routeFrame env code (code :: rest) := by
  unfold handleRadioRx at hs
  split at hs
  · cases hs
    exact Or.inl ⟨rfl, rfl⟩
  · rename_i code rest
    obtain ⟨-, -, hs⟩ := Except.of_bind_eq_ok hs
    obtain ⟨c₁, hcache, hs⟩ := Except.of_bind_eq_ok hs
    cases hs
    exact Or.inr ⟨code, rest, _, rfl, (cacheResponse_kept hcache).trans recordRaw_still.toKept, rfl⟩

theorem reads_refresh (hlen : key.length = 32) : (Command.mk' 0x1E key).Reads key := by
  refine Or.inr ?_
  simp [Command.askedContact, contactKey, hlen, List.take_of_length_le]

theorem pushBack_asks (hread : payload.Reads key) : ∃ q, .handed q ∈ (c.pushBack none payload).out ∧ Asks q key :=
  ⟨⟨none, payload, c.nextTicket⟩, by simp [pushBack, hand, emit], rfl, hread⟩

theorem queueContactRefresh_asks {frame : Bytes} (hlen : 33 ≤ frame.length) :
    ∃ q, .handed q ∈ (c.queueContactRefresh (slice frame 1 33 ⟨by decide, hlen⟩)).out ∧ Asks q (contactKey frame) := by
  have hkey : slice frame 1 33 ⟨by decide, hlen⟩ = contactKey frame := by
    simp only [slice, contactKey]
  rw [hkey]
  exact pushBack_asks (reads_refresh (by simp [contactKey]; omega))

theorem Moves.asks (hm : Moves orderly env t c c') (h : ∃ q, .handed q ∈ c.out ∧ Asks q key) :
    ∃ q, .handed q ∈ c'.out ∧ Asks q key := by
  obtain ⟨es, hout, -⟩ := hm.out
  obtain ⟨q, hq, hasks⟩ := h
  exact ⟨q, by rw [hout]; exact List.mem_append_left _ hq, hasks⟩

/-- A push that announces a contact makes the proxy ask for it. -/
theorem handleRadioRx_announced (hs : c.handleRadioRx env frame = .ok c')
    (hun : ∀ f ∈ c.inFlight, ∀ code ∈ frame.head?, (f.awaiting.classify code).1 = false) (h : Announces frame key) :
    ∃ q, .handed q ∈ c'.out ∧ Asks q key := by
  obtain ⟨hcode, hlen, rfl⟩ := h
  rcases handleRadioRx_cases hs with ⟨rfl, -⟩ | ⟨code, rest, c₁, rfl, hkept, rfl⟩
  · exact absurd hlen (by decide)
  have hcode : code = 0x80 ∨ code = 0x81 := hcode.imp Option.some.inj Option.some.inj
  have hunmatched : c₁.routeFrame env code (code :: rest) = c₁.routeUnmatched env code (code :: rest) := by
    rw [routeFrame_eq]
    split
    · rfl
    · rename_i f hslot
      have hfalse := hun f (hkept.slot ▸ hslot) code rfl
      split
      · rename_i hclass
        rw [hclass] at hfalse
        cases hfalse
      · rename_i hclass
        rw [hclass] at hfalse
        cases hfalse
      · rfl
  have hack : (c₁.tryRouteAck code (code :: rest)) = (false, c₁) := by
    have hne : ¬(code = 0x82 ∧ 5 ≤ (code :: rest).length) := by rcases hcode with rfl | rfl <;> simp
    rw [tryRouteAck, dif_neg hne]
  have hpush : isPushEvent code = true := by rcases hcode with rfl | rfl <;> rfl
  rw [hunmatched, routeUnmatched, hack]
  simp only [Bool.false_eq_true, if_false, hpush, if_true]
  have hrefresh : ∃ q, .handed q ∈ (c₁.refreshOnPush env code (code :: rest)).out ∧
      Asks q (contactKey (code :: rest)) := by
    rw [refreshOnPush, dif_pos ⟨hcode, hlen⟩]
    have hqueued := queueContactRefresh_asks (c := c₁) hlen
    dsimp only
    split
    · rename_i hfree
      have hmoves : Moves True env none (c₁.queueContactRefresh _) ((c₁.queueContactRefresh _).advanceQueue env) :=
        advanceQueue_moves (Option.isNone_iff_eq_none.mp hfree)
      exact hmoves.asks hqueued
    · exact hqueued
  exact hrefresh.imp fun q hq => ⟨List.mem_append_left _ hq.1, hq.2⟩

/-- The acceptance of a request that changes a contact makes the proxy ask for it. -/
theorem handleRadioRx_changed (hs : c.handleRadioRx env frame = .ok c') (hslot : c.inFlight = some f)
    (hcode : frame.head? = some code) (hends : f.awaiting.classify code = (true, true)) (hne : code ≠ 0x01)
    (h : f.payload.Changes key) : ∃ q, .handed q ∈ c'.out ∧ Asks q key := by
  obtain ⟨c₁, -, rfl⟩ := handleRadioRx_completed hs hslot hcode hends
  generalize (c₁.recordRaw env code frame).deliverReply env f code frame = c₂
  simp only [complete, if_pos hne, onCommandAccepted_eq]
  generalize hc₃ : ({ c₂ with inFlight := none }.emit (.ended f.request (.replied code))).acceptance f = c₃
  have hfree : c₃.inFlight = none := by
    rw [← hc₃, acceptance_still.slot]
    rfl
  have haccepted : ∃ q, .handed q ∈ (c₃.afterAccepted env f).out ∧ Asks q key := by
    rcases h with ⟨hcode, hlen, rfl⟩ | himport
    · have hrefresh :
          c₃.afterAccepted env f = c₃.queueContactRefresh (slice f.payload.bytes 1 33 ⟨by decide, hlen⟩) := by
        unfold afterAccepted
        rcases hcode with hcode | hcode <;> simp [InFlight.cmdCode, hcode, hlen]
      rw [hrefresh]
      exact queueContactRefresh_asks hlen
    · have hsync : c₃.afterAccepted env f = c₃.pushBack none getContacts := by
        unfold afterAccepted
        simp [InFlight.cmdCode, himport]
      rw [hsync]
      exact pushBack_asks (Or.inl rfl)
  have hecho :
      Still (Effect.Side (some f.ticket)) (c₃.afterAccepted env f) ((c₃.afterAccepted env f).echoAccepted env f) :=
    echoAccepted_still
  have hfree' : ((c₃.afterAccepted env f).echoAccepted env f).inFlight = none := by
    rw [hecho.slot, afterAccepted_slot, hfree]
  have hmoves : Moves True env none ((c₃.afterAccepted env f).echoAccepted env f)
      (((c₃.afterAccepted env f).echoAccepted env f).advanceQueue env) := advanceQueue_moves hfree'
  refine hmoves.asks ?_
  obtain ⟨es, hout, -⟩ := hecho.out
  exact haccepted.imp fun q hq => ⟨by rw [hout]; exact List.mem_append_left _ hq.1, hq.2⟩

end
end Core
end CoreSplitter
