import CoreSplitter.World.Lockstep

/-! Replies: with a radio that answers in shape, and in time, each client gets the replies to its own requests,
    all of them and in order. -/

namespace CoreSplitter
open Bytes

/-- A reply on the channel of `cid`: the request it is for, the layout, and the frame in that layout. -/
def Effect.replyTo (cid : ClientId) : Effect → Option (Ticket × UInt8 × Bytes)
  | .client cid' _ version frame (.reply t) => if cid' = cid then some (t, version, frame) else none
  | _ => none

def repliesTo (cid : ClientId) (h : List Effect) : List (Ticket × UInt8 × Bytes) := h.filterMap (·.replyTo cid)

/-- What `frame` may be used for: as a reply it goes to the client of its request, a message that a GET_MSG took
    off the radio goes to the other clients too, and it completes its request if it is the last reply to it.
    Only a push goes out as one, or as the ACK of a message. -/
def Effect.Due (frame : Option Frame) : Effect → Prop
  | .client cid _ version shown (.reply t) => ∃ f ∈ frame, ∃ q ∈ f.request,
      q.clientId = some cid ∧ t = q.ticket ∧ shown = messageFrameFor version f.body
  | .client cid _ version shown (.fanout t) => ∃ f ∈ frame, ∃ q ∈ f.request,
      q.clientId ≠ some cid ∧ q.payload.code = 0x0A ∧ t = q.ticket ∧ shown = messageFrameFor version f.body ∧
        ∃ code ∈ f.body.head?, code ∈ [0x07, 0x08, 0x10, 0x11]
  | .client _ _ _ _ .ack | .broadcast _ => ∀ f ∈ frame, f.request = none
  | .ended q (.replied code) => ∃ f ∈ frame, f.request = some q ∧ f.last = true ∧ f.body.head? = some code
  | _ => True

section
variable {h h' es : List Effect} {cid : ClientId} {e : Effect} {frame : Option Frame}

@[simp] theorem repliesTo_append : repliesTo cid (h ++ h') = repliesTo cid h ++ repliesTo cid h' :=
  List.filterMap_append

theorem repliesTo_eq_nil (hes : ∀ e ∈ es, e.isRelayed = false) : repliesTo cid es = [] := by
  refine List.filterMap_eq_nil_iff.mpr fun e he => ?_
  have hrelayed := hes e he
  rcases e with ⟨_, _, _, _, _ | _ | _ | _ | _ | _ | _ | _⟩ | _ | _ | _ | _ | _ | _ | _ | _
  all_goals first
    | rfl
    | cases hrelayed

theorem Effect.due_of_not_relayed (hrelayed : e.isRelayed = false) (hlane : ∀ q, e.laneEvent ≠ some (.finish q)) :
    e.Due frame := by
  rcases e with ⟨_, _, _, _, _ | _ | _ | _ | _ | _ | _ | _⟩ | _ | _ | _ | _ | ⟨q, _ | _⟩ | _ | _ | _
  all_goals first
    | trivial
    | exact absurd rfl (hlane q)

theorem Effect.due_of_unasked (h : e.Unasked) (hpush : ∀ f ∈ frame, f.request = none) : e.Due frame := by
  obtain ⟨hlane, hanswer, habout⟩ := h
  rcases e with ⟨_, _, _, _, _ | _ | _ | _ | _ | _ | _ | _⟩ | _ | _ | _ | _ | ⟨q, _ | _⟩ | _ | _ | _
  all_goals trivial

end

namespace Core
variable {b : Bool} {h es : List Effect} {c c' : Core} {env : Env} {t : Option Ticket} {f : InFlight} {code : UInt8}
  {payload : Bytes} {e : Effect} {cid : ClientId} {frame : Option Frame} {fr : Frame}

theorem EmittedByMove.due (h : EmittedByMove b t e) (hpush : t = none → ∀ f ∈ frame, f.request = none) :
    e.Due frame := by
  cases h with
  | side h => exact Effect.due_of_not_relayed h.relayed fun q => by rw [h.lane]; exact nofun
  | relay h hnone => exact Effect.due_of_unasked h (hpush hnone)
  | error h =>
    obtain ⟨_, _, _, _, -, rfl⟩ := h
    trivial
  | handed | radio | sendFailed | clientGone => trivial

theorem EmittedByMove.replyTo (h : EmittedByMove b t e) : e.replyTo cid = none := by
  cases h with
  | side h =>
    have hrelayed := h.relayed
    rcases e with ⟨_, _, _, _, _ | _ | _ | _ | _ | _ | _ | _⟩ | _ | _ | _ | _ | _ | _ | _ | _
    all_goals first
      | rfl
      | cases hrelayed
  | relay h =>
    have hanswer := h.answer
    rcases e with ⟨_, _, _, _, _ | _ | _ | _ | _ | _ | _ | _⟩ | _ | _ | _ | _ | _ | _ | _ | _
    all_goals first
      | rfl
      | cases hanswer
  | error h =>
    obtain ⟨_, _, _, _, -, rfl⟩ := h
    rfl
  | handed | radio | sendFailed | clientGone => rfl

/-! ### The reply that is delivered -/

theorem replyTo_delivery : (c.delivery cid payload (.reply f.ticket)).replyTo cid =
    some (f.ticket, c.protocolVersion cid, messageFrameFor (c.protocolVersion cid) payload) := if_pos rfl

/-- What the client of the request in flight is sent for a reply to it. -/
theorem replyToClient_due (c : Core) (env : Env) (code : UInt8) (hbody : fr.body = payload)
    (hq : fr.request = some f.request) :
    ∃ es, (c.replyToClient env f code payload).out = c.out ++ es ∧ (∀ e ∈ es, e.Due (some fr)) ∧
      (∀ cid, f.clientId ≠ some cid → repliesTo cid es = []) ∧
      ∀ cid, f.clientId = some cid → cid ∈ (c.replyToClient env f code payload).clients.channels →
        ∃ version, repliesTo cid es = [(f.ticket, version, messageFrameFor version payload)] := by
  unfold replyToClient
  split
  · rename_i cid hclient
    obtain ⟨es, hout, hacks⟩ : ∃ es, (c.recordAck env cid f.ticket code payload).out = c.out ++ es ∧
        ∀ e ∈ es, ∃ ack, e = .ackPending f.ticket ack := recordAck_out
    have hnone (cid : ClientId) : repliesTo cid es = [] := repliesTo_eq_nil fun e he => by
      obtain ⟨ack, rfl⟩ := hacks e he
      rfl
    refine ⟨es ++ _, by rw [sendToClient_out, hout, List.append_assoc], fun e he => ?_, fun cid' hne => ?_,
      fun cid' hcid' hmem => ?_⟩
    · rcases List.mem_append.mp he with he | he
      · obtain ⟨ack, rfl⟩ := hacks e he
        trivial
      · split at he
        · obtain rfl := List.mem_singleton.mp he
          exact ⟨fr, rfl, f.request, hq, hclient, rfl, by rw [hbody]⟩
        · cases he
    · rw [repliesTo_append, hnone, List.nil_append]
      split
      · have hne : cid ≠ cid' := fun heq => hne (heq ▸ hclient)
        simp [repliesTo, delivery, Effect.replyTo, hne]
      · rfl
    · obtain rfl := Option.some.inj (hclient.symm.trans hcid')
      refine ⟨(c.recordAck env cid f.ticket code payload).protocolVersion cid, ?_⟩
      rw [if_pos hmem, repliesTo_append, hnone, List.nil_append]
      simp [repliesTo, replyTo_delivery]
  · rename_i hnone
    refine ⟨[], (List.append_nil _).symm, List.forall_mem_nil _, fun _ _ => rfl, fun cid hcid => ?_⟩
    rw [hnone] at hcid
    cases hcid

theorem deliverReply_due (c : Core) (env : Env) (hbody : fr.body = payload) (hq : fr.request = some f.request)
    (hcode : payload.head? = some code) :
    ∃ es, (c.deliverReply env f code payload).out = c.out ++ es ∧ (∀ e ∈ es, e.Due (some fr)) ∧
      (∀ cid, f.clientId ≠ some cid → repliesTo cid es = []) ∧
      ∀ cid, f.clientId = some cid → cid < c.clients.nextId →
        cid ∈ (c.deliverReply env f code payload).clients.channels →
        ∃ version, repliesTo cid es = [(f.ticket, version, messageFrameFor version payload)] := by
  obtain ⟨es, hout, hdue, hothers, hown⟩ := replyToClient_due c env code hbody hq
  rw [deliverReply_eq]
  split
  · rename_i hfan
    have hnone (cid : ClientId) :
        repliesTo cid ((((c.replyToClient env f code payload).lockClients.clients.channels.filter
        fun cid => f.clientId != some cid).map fun cid =>
          (c.replyToClient env f code payload).lockClients.delivery cid payload (.fanout f.ticket))) = [] := by
      refine List.filterMap_eq_nil_iff.mpr fun e he => ?_
      obtain ⟨cid', -, rfl⟩ := List.mem_map.mp he
      rfl
    refine ⟨es ++ _, by rw [← List.append_assoc, ← hout]; rfl, fun e he => ?_, fun cid hne => ?_,
      fun cid hcid hknown hmem => ?_⟩
    · rcases List.mem_append.mp he with he | he
      · exact hdue e he
      · obtain ⟨cid, hcid, rfl⟩ := List.mem_map.mp he
        have hother : f.clientId ≠ some cid := by simpa using (List.mem_filter.mp hcid).2
        exact ⟨fr, rfl, f.request, hq, hother, hfan.1, rfl, by rw [hbody], code, by rw [hbody]; exact hcode,
          by simpa using hfan.2⟩
    · rw [repliesTo_append, hothers cid hne, hnone]
      rfl
    · rw [repliesTo_append, hnone, List.append_nil]
      refine hown cid hcid ?_
      have hlater : (c.replyToClient env f code payload).clients.Later
          (c.replyToClient env f code payload).clients.lock := Clients.lock_later
      have hstill : Still (Effect.OfReply f) c (c.replyToClient env f code payload) := replyToClient_still
      exact hlater.old cid hmem (Nat.lt_of_lt_of_le hknown hstill.clients.later.nextId)
  · exact ⟨es, hout, hdue, hothers, fun cid hcid _ => hown cid hcid⟩

/-! ### A frame that is handled -/

/-- Nothing of `es` was failed instead of being sent. -/
def Unfailed (es : List Effect) : Prop := ∀ q, .ended q .sendFailed ∉ es ∧ .ended q .drained ∉ es

theorem Unfailed.append (h : Unfailed h') (h₁ : Unfailed es) : Unfailed (h' ++ es) := fun q =>
  ⟨fun hmem => (List.mem_append.mp hmem).elim (h q).1 (h₁ q).1,
    fun hmem => (List.mem_append.mp hmem).elim (h q).2 (h₁ q).2⟩

theorem unfailed_of_moves (hes : ∀ e ∈ es, EmittedByMove true t e) : Unfailed es := by
  refine fun q => ⟨fun hmem => ?_, fun hmem => ?_⟩
  · cases hes _ hmem with
    | side h => cases h.lane
    | relay h => cases h.lane
    | error h =>
      obtain ⟨_, _, _, _, -, h⟩ := h
      cases h
    | sendFailed _ hsends => cases hsends
  · cases hes _ hmem with
    | side h => cases h.lane
    | relay h => cases h.lane
    | error h =>
      obtain ⟨_, _, _, _, -, h⟩ := h
      cases h

theorem unfailed_of_lane (hes : ∀ e ∈ es, e.laneEvent = none) : Unfailed es := by
  refine fun q => ⟨fun hmem => ?_, fun hmem => ?_⟩ <;> cases hes _ hmem

theorem repliesTo_of_moves (hes : ∀ e ∈ es, EmittedByMove b t e) : repliesTo cid es = [] :=
  List.filterMap_eq_nil_iff.mpr fun e he => (hes e he).replyTo

/-- A frame that the request in flight does not await. -/
theorem handleRadioRx_unmatched (hs : c.handleRadioRx env payload = .ok c')
    (hun : ∀ f ∈ c.inFlight, ∀ code ∈ payload.head?, (f.awaiting.classify code).1 = false)
    (hsends : b = true → c.canSend env = true) :
    Emitted b none c c' ∧ c'.radioSendTx = c.radioSendTx ∧ c.clients.Later c'.clients := by
  rcases handleRadioRx_routed hs with ⟨-, rfl⟩ | ⟨code, rest, c₁, rfl, hcache, hr⟩
  · exact ⟨.of_out rfl, rfl, .refl⟩
  · have hcached : Kept (Effect.Side none) c (c₁.recordRaw env code (code :: rest)) :=
      (cacheResponse_kept hcache).trans recordRaw_still.toKept
    have hmatched (f : InFlight) (hslot : (c₁.recordRaw env code (code :: rest)).inFlight = some f)
        (hcode : (f.awaiting.classify code).1 = true) : False := by
      have hfalse := hun f (hcached.slot ▸ hslot) code rfl
      rw [hcode] at hfalse
      cases hfalse
    cases hr with
    | finish f hslot hcode _ => exact (hmatched f hslot (by rw [hcode])).elim
    | part f hslot hcode _ => exact (hmatched f hslot (by rw [hcode])).elim
    | other _ hm =>
      have hopen (h : b = true) : (c₁.recordRaw env code (code :: rest)).canSend env = true := by
        simpa [canSend, hcached.link] using hsends h
      exact ⟨hcached.emitted.trans (hm.emitted hopen), hm.link.trans hcached.link,
        hcached.clients.later.trans hm.onward.later⟩

/-- What follows the delivery of a reply: nothing, or the end of its request and the moves after that. -/
structure AfterReply (f : InFlight) (fr : Frame) (c c' : Core) : Prop where
  link : c'.radioSendTx = c.radioSendTx
  later : c.clients.Later c'.clients
  out : ∃ es, c'.out = c.out ++ es ∧ (∀ e ∈ es, e.Due (some fr)) ∧ Unfailed es ∧ ∀ cid, repliesTo cid es = []

theorem Routed.afterReply {last : Bool} (hr : Routed env code payload c c') (hslot : c.inFlight = some f)
    (hcode : fr.body.head? = some code) (hclass : f.awaiting.classify code = (true, last))
    (hq : fr.request = some f.request) (hlast : fr.last = last) (hsend : c.canSend env = true) :
    AfterReply f fr (c.deliverReply env f code payload) c' := by
  have hstill : Still (Effect.OfReply f) c (c.deliverReply env f code payload) := deliverReply_still
  cases hr with
  | other hun =>
    have hfalse := hun f hslot
    rw [hclass] at hfalse
    cases hfalse
  | part g hg _ heq =>
    cases hslot.symm.trans hg
    rw [heq]
    exact ⟨rfl, .refl, [], (List.append_nil _).symm, List.forall_mem_nil _,
      fun _ => ⟨List.not_mem_nil, List.not_mem_nil⟩, fun _ => rfl⟩
  | finish g hg hends hm =>
    cases hslot.symm.trans hg
    have hopen : (c.finish env f code payload).canSend env = true := by
      have hlink : (c.finish env f code payload).radioSendTx = c.radioSendTx := hstill.link
      simpa only [canSend, hlink] using hsend
    obtain ⟨es, hout, hes⟩ : Emitted true (some f.ticket) (c.finish env f code payload) c' := hm.emitted fun _ => hopen
    have htrue : last = true := congrArg Prod.snd (hclass.symm.trans hends)
    refine ⟨hm.link, hm.onward.later, .ended f.request (.replied code) :: es, ?_, ?_, fun q => ?_, fun cid => ?_⟩
    · rw [hout]
      exact List.append_assoc _ [.ended f.request (.replied code)] es
    · intro e he
      rcases List.mem_cons.mp he with rfl | he
      · exact ⟨fr, rfl, hq, hlast.trans htrue, hcode⟩
      · exact (hes e he).due fun h => absurd h (Option.some_ne_none _)
    · obtain ⟨hsent, hdrained⟩ := unfailed_of_moves hes q
      exact ⟨fun hmem => hsent ((List.mem_cons.mp hmem).resolve_left (by simp)),
        fun hmem => hdrained ((List.mem_cons.mp hmem).resolve_left (by simp))⟩
    · have hnone : repliesTo cid es = [] := repliesTo_of_moves hes
      exact hnone

/-- A frame that replies to the request in flight. -/
theorem handleRadioRx_replied {last : Bool} (hs : c.handleRadioRx env payload = .ok c') (hslot : c.inFlight = some f)
    (hcode : payload.head? = some code) (hclass : f.awaiting.classify code = (true, last)) (hbody : fr.body = payload)
    (hq : fr.request = some f.request) (hlast : fr.last = last) (hsend : c.canSend env = true) :
    c'.radioSendTx = c.radioSendTx ∧ c.clients.Later c'.clients ∧ ∃ es, c'.out = c.out ++ es ∧
      (∀ e ∈ es, e.Due (some fr)) ∧ Unfailed es ∧ (∀ cid, f.clientId ≠ some cid → repliesTo cid es = []) ∧
      ∀ cid, f.clientId = some cid → cid < c.clients.nextId → cid ∈ c'.clients.channels →
        ∃ version, repliesTo cid es = [(f.ticket, version, messageFrameFor version payload)] := by
  rcases handleRadioRx_routed hs with ⟨rfl, -⟩ | ⟨code', rest, c₁, rfl, hcache, hr⟩
  · cases hcode
  obtain rfl : code' = code := Option.some.inj hcode
  generalize hraw : c₁.recordRaw env code' (code' :: rest) = c₂ at hr
  have hcached : Kept (Effect.Side (some f.ticket)) c c₂ :=
    hraw ▸ (cacheResponse_kept hcache).trans recordRaw_still.toKept
  obtain ⟨es₁, hout₁, hes₁⟩ : Emitted true (some f.ticket) c c₂ := hcached.emitted
  have hslot₂ : c₂.inFlight = some f := hcached.slot.trans hslot
  have hsend₂ : c₂.canSend env = true := by simpa [canSend, hcached.link] using hsend
  obtain ⟨es₂, hout₂, hdue₂, hothers, hown⟩ := deliverReply_due c₂ env hbody hq hcode
  have hstill : Still (Effect.OfReply f) c₂ (c₂.deliverReply env f code' (code' :: rest)) := deliverReply_still
  have hlane₂ : ∀ e ∈ es₂, e.laneEvent = none := fun e he => by
    obtain ⟨es, hout, hes⟩ := hstill.out
    have heq : es = es₂ := List.append_cancel_left (hout.symm.trans hout₂)
    exact (hes e (heq ▸ he)).lane
  obtain ⟨hlink, hlater, es₃, hout₃, hdue₃, hunfailed₃, hnone₃⟩ :=
    hr.afterReply hslot₂ (hbody ▸ hcode) hclass hq hlast hsend₂
  refine ⟨(hlink.trans hstill.link).trans hcached.link,
    (hcached.clients.later.trans hstill.clients.later).trans hlater, es₁ ++ es₂ ++ es₃, ?_, ?_, ?_, ?_, ?_⟩
  · rw [hout₃, hout₂, hout₁, List.append_assoc, List.append_assoc, List.append_assoc]
  · intro e he
    rcases List.mem_append.mp he with he | he
    · exact (List.mem_append.mp he).elim (fun he => (hes₁ e he).due fun h => absurd h (Option.some_ne_none _)) (hdue₂ e)
    · exact hdue₃ e he
  · exact ((unfailed_of_moves hes₁).append (unfailed_of_lane hlane₂)).append hunfailed₃
  · intro cid hne
    rw [repliesTo_append, repliesTo_append, repliesTo_of_moves hes₁, hothers cid hne, hnone₃]
    rfl
  · intro cid hclient hknown hmem
    have hknown₂ : cid < c₂.clients.nextId := Nat.lt_of_lt_of_le hknown hcached.clients.later.nextId
    have hmem₂ := hlater.old cid hmem (Nat.lt_of_lt_of_le hknown₂ hstill.clients.later.nextId)
    obtain ⟨version, hversion⟩ := hown cid hclient hknown₂ hmem₂
    refine ⟨version, ?_⟩
    rw [repliesTo_append, repliesTo_append, repliesTo_of_moves hes₁, hversion, hnone₃]
    rfl

end Core

namespace World
variable {σ : Type} {R : Radio σ} {w w₁ : World σ} {c : Core} {cid : ClientId} {f : Frame} {rest : List Frame}

/-- The link stays up, and no request times out. -/
def Undisturbed (w : World σ) (_ : List (List FrontendOp)) (e : Core.Event) : Prop :=
  e.WriterOpen ∧ e.Timely w.core

instance (w : World σ) (frontend : List (List FrontendOp)) (e : Core.Event) : Decidable (w.Undisturbed frontend e) :=
  inferInstanceAs (Decidable (e.WriterOpen ∧ e.Timely w.core))

theorem syncOpen_of_undisturbed (w : World σ) (frontend : List (List FrontendOp)) (e : Core.Event)
    (h : w.Undisturbed frontend e) : e.SyncOpen := by
  cases e with
  | disconnected => exact h.1.elim
  | _ => trivial

/-- The frames of the radio that were handled. -/
def handled (w : World σ) : List Frame := w.log.filterMap (·.1)

/-- Those that reply to requests of `cid`. -/
def handledFor (w : World σ) (cid : ClientId) : List Frame :=
  w.handled.filter fun f => f.request.any fun q => q.clientId == some cid

def requestsOf (cid : ClientId) (qs : List Queued) : List Queued := qs.filter fun q => q.clientId == some cid

/-- What was sent as a reply shows the frame of the radio, in the layout it was sent in. -/
def Shows (r : Ticket × UInt8 × Bytes) (f : Frame) : Prop :=
  ∃ q ∈ f.request, r.1 = q.ticket ∧ r.2.2 = messageFrameFor r.2.1 f.body

/-- What holds of a world whose link stays up and whose radio answers in shape and in time. -/
structure Faithful (w : World σ) : Prop where
  link : w.core.radioSendTx = true
  answered : Wire.Answers w.handled (sentToRadio w.history) w.core.held
  shown : ∀ cid, cid ∈ w.core.clients.channels ∨ w.core.clients.nextId ≤ cid →
    List.Forall₂ Shows (repliesTo cid w.history) (w.handledFor cid)
  due : ∀ entry ∈ w.log, ∀ e ∈ entry.2, e.Due entry.1
  unfailed : Core.Unfailed w.history

/-- A turn keeps the account when it is about a frame that is accounted for. -/
theorem Faithful.turned {o : Option Frame} (hf : Faithful w)
    (hlink : c.radioSendTx = true) (hlater : w.core.clients.Later c.clients)
    (hanswered : Wire.Answers (w.handled ++ o.toList) (sentToRadio w.history ++ sentToRadio c.out) c.held)
    (hdue : ∀ e ∈ c.out, e.Due o) (hunfailed : Core.Unfailed c.out)
    (hshown : ∀ cid, cid ∈ c.clients.channels ∧ cid < w.core.clients.nextId ∨ w.core.clients.nextId ≤ cid →
      List.Forall₂ Shows (repliesTo cid c.out) (o.toList.filter fun f => f.request.any fun q =>
        q.clientId == some cid)) : Faithful (w.turned c o) := by
  have hhandled : (w.turned c o).handled = w.handled ++ o.toList := by
    simp only [handled, turned_log, List.filterMap_append]
    cases o <;> rfl
  refine ⟨hlink, ?_, fun cid hcid => ?_, fun entry hmem => ?_, ?_⟩
  · rw [hhandled, turned_history, sentToRadio_append]
    exact hanswered
  · rw [turned_history, repliesTo_append, handledFor, hhandled, List.filter_append]
    have hbefore : cid ∈ w.core.clients.channels ∨ w.core.clients.nextId ≤ cid := by
      rcases hcid with hcid | hcid
      · exact (Nat.lt_or_ge cid w.core.clients.nextId).imp_left fun hlt => hlater.old cid hcid hlt
      · exact Or.inr (Nat.le_trans hlater.nextId hcid)
    refine List.rel_append (hf.shown cid hbefore) (hshown cid ?_)
    rcases hcid with hcid | hcid
    · exact (Nat.lt_or_ge cid w.core.clients.nextId).imp_left fun hlt => ⟨hcid, hlt⟩
    · exact Or.inr (Nat.le_trans hlater.nextId hcid)
  · rcases List.mem_append.mp hmem with hmem | hmem
    · exact hf.due entry hmem
    · exact List.mem_singleton.mp hmem ▸ hdue
  · rw [turned_history]
    exact hf.unfailed.append hunfailed

/-- The core's clients, as a turn finds them. -/
theorem begin_later {frontend : List (List FrontendOp)} : c.clients.Later (c.begin frontend).clients :=
  ⟨Nat.le_refl _, fun _ h _ => h⟩

theorem Faithful.pushed {frontend : List (List FrontendOp)} {env : Env} (hshape : R.Shaped) (hquiet : R.Quiet)
    (hf : Faithful w) (hl : Lockstep R w) (ha : w.Accounted) (ha' : ((w.received rest).turned c (some f)).Accounted)
    (hback : w.wire.back = f :: rest) (hopen : env.writerOpen = true) (hq : f.request = none)
    (hs : w.core.step frontend (.radio env f.body) = .ok c) : Faithful ((w.received rest).turned c (some f)) := by
  have hemitted := hl.emitted f (by simp [hback])
  rw [Radio.Emits, hq] at hemitted
  obtain ⟨s, s', hpush⟩ := hemitted
  obtain ⟨code, hcode, hispush⟩ := hshape.push _ _ _ hpush
  -- No request awaits what a quiet radio pushes.
  have hun : ∀ g ∈ (w.core.begin frontend).inFlight, ∀ code ∈ f.body.head?, (g.awaiting.classify code).1 = false := by
    intro g hg code' hcode'
    cases hcode.symm.trans hcode'
    have hawaiting : g.awaiting = awaitingFor g.payload := Core.Accounted.awaiting ha g hg
    refine Bool.eq_false_iff.mpr fun hmatch => ?_
    rw [hawaiting] at hmatch
    obtain ⟨-, rfl⟩ := classify_push hispush hmatch
    exact hquiet _ _ _ hpush hcode
  have hsend : (w.core.begin frontend).canSend env = true := by simp [Core.canSend, Core.begin, hf.link, hopen]
  obtain ⟨⟨es, hout, hes⟩, hlink, hlater⟩ := Core.handleRadioRx_unmatched (b := true) hs hun fun _ => hsend
  obtain rfl : c.out = es := by simpa [Core.begin] using hout
  have hbalance : w.core.held ++ sentToRadio c.out = terminated c.out ++ c.held :=
    Core.Accounted.balance_step ha (by simpa [Accounted] using ha')
  rw [terminated_eq_nil fun e he => (hes e he).laneEvent, List.nil_append] at hbalance
  have hreceived : Faithful (w.received rest) := ⟨hf.link, hf.answered, hf.shown, hf.due, hf.unfailed⟩
  have hfdue : ∀ g ∈ some f, g.request = none := fun g hg => Option.some.inj hg ▸ hq
  refine hreceived.turned (hlink.trans hf.link) (begin_later.trans hlater) ?_
    (fun e he => (hes e he).due fun _ => hfdue) (Core.unfailed_of_moves hes) fun cid _ => ?_
  · rw [← hbalance, Option.toList_some]
    have hframe : f = ⟨f.body, none, f.last⟩ := by rw [← hq]
    rw [hframe]
    exact (hf.answered.emit_push f.last).send _
  · rw [Core.repliesTo_of_moves hes]
    simp [hq]

theorem Faithful.replied {frontend : List (List FrontendOp)} {env : Env} {q : Queued} (hshape : R.Shaped)
    (hquiet : R.Quiet) (hf : Faithful w) (hl : Lockstep R w) (ha : w.Accounted)
    (ha' : ((w.received rest).turned c (some f)).Accounted) (hback : w.wire.back = f :: rest)
    (hopen : env.writerOpen = true) (hq : f.request = some q)
    (hs : w.core.step frontend (.radio env f.body) = .ok c) : Faithful ((w.received rest).turned c (some f)) := by
  have hheld : w.core.held = [q] := hl.replied hback hq (Or.inl hquiet)
  obtain ⟨g, hslot, rfl⟩ := mem_held (hheld ▸ List.mem_cons_self : q ∈ w.core.held)
  have hemitted := hl.emitted f (by simp [hback])
  rw [Radio.Emits, hq] at hemitted
  obtain ⟨s, s', hreply⟩ := hemitted
  obtain ⟨code, hcode, hclass⟩ := hshape.reply _ _ _ _ _ hreply
  have hawaiting : g.awaiting = awaitingFor g.request.payload := Core.Accounted.awaiting ha g hslot
  rw [← hawaiting] at hclass
  have hsend : (w.core.begin frontend).canSend env = true := by simp [Core.canSend, Core.begin, hf.link, hopen]
  have hslot' : (w.core.begin frontend).inFlight = some g := hslot
  obtain ⟨hlink, hlater, es, hout, hdue, hunfailed, hothers, hown⟩ :=
    Core.handleRadioRx_replied hs hslot' hcode hclass rfl hq rfl hsend
  obtain rfl : c.out = es := by simpa [Core.begin] using hout
  have hbalance : w.core.held ++ sentToRadio c.out = terminated c.out ++ c.held :=
    Core.Accounted.balance_step ha (by simpa [Accounted] using ha')
  have hreceived : Faithful (w.received rest) := ⟨hf.link, hf.answered, hf.shown, hf.due, hf.unfailed⟩
  refine hreceived.turned (hlink.trans hf.link) (begin_later.trans hlater) ?_ hdue hunfailed fun cid hcid => ?_
  · have hanswered := hf.answered
    rw [hheld] at hanswered hbalance
    rw [Option.toList_some]
    have hframe : f = ⟨f.body, some g.request, f.last⟩ := by rw [← hq]
    rcases Core.handleRadioRx_terminated hs with ⟨⟨es, hout, hes⟩, hunended⟩ |
      ⟨g', code', es, hg', hcode', hends, hout, hes⟩
    · obtain rfl : c.out = es := by simpa [Core.begin] using hout
      have hlast : f.last = false := Bool.eq_false_iff.mpr fun htrue =>
        hunended g hslot code hcode (htrue ▸ hclass)
      rw [hes, List.nil_append] at hbalance
      rw [← hbalance, hframe, hlast]
      exact hanswered.emit_part.send _
    · cases hslot'.symm.trans hg'
      cases hcode.symm.trans hcode'
      obtain rfl : c.out = es := by simpa [Core.begin] using hout
      have hlast : f.last = true := congrArg Prod.snd (hclass.symm.trans hends)
      rw [hes] at hbalance
      have hsent : sentToRadio c.out = c.held := List.append_cancel_left hbalance
      rw [← hsent, hframe, hlast]
      exact hanswered.emit_last.send _
  · by_cases hclient : g.clientId = some cid
    · have hknown : cid < w.core.clients.nextId := by
        have hhanded := Core.Accounted.handed_of_present ha (q := g.request) (by
          simp [Lane.present, Core.lane, hslot])
        exact Core.Accounted.known ha _ hhanded cid hclient
      obtain ⟨version, hversion⟩ :=
        hown cid hclient hknown (hcid.elim (·.1) fun hge => absurd hknown (Nat.not_lt.mpr hge))
      rw [hversion]
      have hkeep : ([f].filter fun f => f.request.any fun q => q.clientId == some cid) = [f] := by
        simp [hq, InFlight.request, hclient]
      rw [Option.toList_some, hkeep]
      exact .cons ⟨g.request, hq, rfl, rfl⟩ .nil
    · have hdrop : ([f].filter fun f => f.request.any fun q => q.clientId == some cid) = [] := by
        simp [hq, InFlight.request, hclient]
      rw [hothers cid hclient, Option.toList_some, hdrop]
      exact .nil

theorem Faithful.step (hshape : R.Shaped) (hquiet : R.Quiet) (hf : Faithful w) (hl : Lockstep R w) (ha : w.Accounted)
    (ha' : w₁.Accounted) (hs : Step R Undisturbed w w₁) : Faithful w₁ := by
  have hvalid : w.core.clients.Valid := Core.Accounted.valid ha
  cases hs with
  | @turn frontend e c hlocal hallow hs =>
    have htimely : e.Timely (w.core.begin frontend) := by
      have h := hallow.2
      cases e <;> exact h
    obtain ⟨⟨es, hout, hes⟩, hlink, hlater⟩ :=
      Core.handle_emitted (b := true) hs ⟨hvalid.born, hvalid.nodup⟩ hlocal htimely
      fun _ => ⟨hf.link, hallow.1⟩
    obtain rfl : c.out = es := by simpa [Core.begin] using hout
    have hbalance : w.core.held ++ sentToRadio c.out = terminated c.out ++ c.held :=
      Core.Accounted.balance_step ha (by simpa [Accounted] using ha')
    rw [terminated_eq_nil fun e he => (hes e he).laneEvent, List.nil_append] at hbalance
    refine hf.turned (hlink.trans hf.link) (begin_later.trans hlater) ?_
      (fun e he => (hes e he).due fun _ _ h => absurd h (Option.not_mem_none _)) (Core.unfailed_of_moves hes)
      fun cid _ => ?_
    · rw [← hbalance, Option.toList_none, List.append_nil]
      exact hf.answered.send _
    · rw [Core.repliesTo_of_moves hes]
      exact .nil
  | @deliver frontend env f rest c hback hallow hs =>
    cases hq : f.request with
    | none => exact hf.pushed hshape hquiet hl ha ha' hback hallow.1 hq hs
    | some q => exact hf.replied hshape hquiet hl ha ha' hback hallow.1 hq hs
  | relink hallow => exact hallow.1.elim
  | take | reply | push | drift => exact ⟨hf.link, hf.answered, hf.shown, hf.due, hf.unfailed⟩

theorem Started.faithful (hstart : Started (fun a => a.syncEnv.writerOpen = true) w)
    (hlink : w.core.radioSendTx = true) : Faithful w := by
  have hemitted := hstart.emitted
  have hlog : w.log = [(none, w.core.out)] := by
    obtain ⟨_, _, _, _, _, -, -, -, -, hlog⟩ := hstart
    exact hlog
  have hhandled : w.handled = [] := by simp [handled, hlog]
  refine ⟨hlink, ?_, fun cid _ => ?_, fun entry hmem => ?_, Core.unfailed_of_moves hemitted⟩
  · rw [hhandled, hstart.sent]
    exact .nil _
  · rw [Core.repliesTo_of_moves hemitted, handledFor, hhandled]
    exact .nil
  · rw [hlog] at hmem
    obtain rfl := List.mem_singleton.mp hmem
    rw [hstart.history_eq] at hemitted
    exact fun e he => (hemitted e he).due fun _ _ => nofun

theorem ended_of_leftOut {h : List Effect} {q : Queued} (hq : q ∈ leftOut h) :
    .ended q .clientGone ∈ h ∨ .ended q .sendFailed ∈ h ∨ .ended q .drained ∈ h := by
  obtain ⟨e, he, heq⟩ := List.mem_filterMap.mp hq
  split at heq
  · cases heq
    exact Or.inl he
  · cases heq
    exact Or.inr (Or.inl he)
  · cases heq
    exact Or.inr (Or.inr he)
  · cases heq

/-- A connected client has been sent the replies to its own requests, each shown in its layout, the requests are
    answered in the order they were handed over and in full up to those that are still to be answered, and no
    frame goes anywhere else. -/
theorem replies_of_requester {w₀ : World σ} (hshape : R.Shaped) (hquiet : R.Quiet)
    (hstart : Started (fun a => a.syncEnv.writerOpen = true) w₀) (hlink : w₀.core.radioSendTx = true)
    (hr : Run R Undisturbed w₀ w) :
    (∀ cid ∈ w.core.clients.channels, List.Forall₂ Shows (repliesTo cid w.history) (w.handledFor cid) ∧
      Wire.Answers (w.handledFor cid) (requestsOf cid (handedOver w.history))
        (requestsOf cid (w.core.held ++ w.core.pendingQueue))) ∧
    ∀ entry ∈ w.log, ∀ e ∈ entry.2, e.Due entry.1 := by
  have haccounted {w : World σ} (hr : Run R Undisturbed w₀ w) : w.Accounted :=
    (hr.accounted hstart syncOpen_of_undisturbed).1
  have hlockstep {w : World σ} (hr : Run R Undisturbed w₀ w) : Lockstep R w :=
    hr.lockstep hshape hstart syncOpen_of_undisturbed fun _ _ _ h => h.2
  have hf : Faithful w := hr.invariant (hstart.faithful hlink) fun _ _ hr hf hs =>
    hf.step hshape hquiet (hlockstep hr) (haccounted hr) (haccounted (hr.step hs)) hs
  have ha := haccounted hr
  refine ⟨fun cid hcid => ⟨hf.shown cid (Or.inl hcid), ?_⟩, hf.due⟩
  -- Nothing of a connected client was left out.
  have hown (q : Queued) (hq : q.clientId = some cid) : q ∉ leftOut w.history := fun hleft => by
    rcases ended_of_leftOut hleft with hgone | hfailed | hdrained
    · obtain ⟨-, cid', hcid', hgone⟩ := Core.Accounted.gone ha q hgone
      cases hq.symm.trans hcid'
      exact hgone hcid
    · exact (hf.unfailed q).1 hfailed
    · exact (hf.unfailed q).2 hdrained
  have horder : sentToRadio w.history ++ w.core.pendingQueue =
      (handedOver w.history).filter fun q => decide (q ∉ leftOut w.history) := by
    have h := (Core.Accounted.lane ha).order (submitted_laneEvents ▸ List.Nodup.of_map _ (Core.Accounted.unique ha))
    rwa [started_laneEvents, submitted_laneEvents, dropped_laneEvents] at h
  have hhanded : requestsOf cid (handedOver w.history) =
      requestsOf cid (sentToRadio w.history ++ w.core.pendingQueue) := by
    rw [horder, requestsOf, requestsOf, List.filter_filter]
    refine List.filter_congr fun q _ => ?_
    by_cases hq : q.clientId = some cid <;> simp [hq, hown]
  rw [hhanded]
  exact (hf.answered.send w.core.pendingQueue).filter _

/-- The sync, a push in the middle of it, and the battery for client 1. -/
def batteryAfterSync : List (Act Unit) :=
  [.turn [[.connect]] (.command Core.sound ⟨1, 5000, [0x14]⟩),
    .take (), .reply [0x02, 0, 0, 0, 0] false (), .push [0x80] (), .reply [0x04, 0, 0, 0, 0] true (),
    .deliver [] Core.sound, .deliver [] Core.sound, .deliver [] Core.sound,
    .take (), .reply [0x01, 2] true (), .deliver [] Core.sound,
    .take (), .reply [0x0C, 0x10, 0x0E] true (), .deliver [] Core.sound]

theorem replies_of_requester_battery : ∃ w : World Unit, repliesTo 1 w.history = [(2, 0, [0x0C, 0x10, 0x0E])] ∧
    List.Forall₂ Shows (repliesTo 1 w.history) (w.handledFor 1) := by
  obtain ⟨w₀, w, hstart, hr, hlink, hmem, hreplies⟩ : ∃ w₀ w : World Unit,
      Started (fun a => a.syncEnv.writerOpen = true) w₀ ∧ Run .inShape Undisturbed w₀ w ∧
      (w₀.core.radioSendTx = true ∧ 1 ∈ w.core.clients.channels ∧
        repliesTo 1 w.history = [(2, 0, [0x0C, 0x10, 0x0E])]) :=
    exists_run (s := ()) (l := batteryAfterSync) (by decide +kernel) fun _ h => h
  have hall := replies_of_requester Radio.inShape_shaped Radio.inShape_quiet hstart hlink hr
  exact ⟨w, hreplies, (hall.1 1 hmem).1⟩

end World
end CoreSplitter
