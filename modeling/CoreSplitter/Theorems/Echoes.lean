import CoreSplitter.Theorems.Lengths

/-! What becomes of a message that a client sends: when the radio accepts it the others get its echo and it is
    stored, under the identity that sent it; and otherwise nothing of it is left. -/

namespace CoreSplitter
open Bytes

/-! ### Echoes and rows -/

/-- A message that the core echoes once the radio accepts it. -/
def Command.IsSend (p : Command) : Prop :=
  p.code = 0x02 ∧ 14 ≤ p.bytes.length ∨ p.code = 0x03 ∧ 8 ≤ p.bytes.length

/-- The echo of a request, to one client. -/
def echoTo (t : Ticket) (cid : ClientId) : Effect → Option Bytes
  | .client cid' _ _ frame (.echo t') => if cid' = cid ∧ t' = t then some frame else none
  | _ => none

def storedRow : Effect → Option MessageRow
  | .stored row _ => some row
  | _ => none

/-- The echoes of a request that a client was sent. -/
def echoesTo (t : Ticket) (cid : ClientId) (h : List Effect) : List Bytes := h.filterMap (echoTo t cid)

/-- The messages that were stored. -/
def storedRows (h : List Effect) : List MessageRow := h.filterMap storedRow

/-- The radio accepts a request. -/
def Ending.IsAcceptance : Ending → Prop
  | .replied code => code ≠ 0x01
  | _ => False

namespace Core

/-- What `g` picks out of the effects from `c` to `c₁`. -/
def Appends {β : Type} (g : Effect → Option β) (l : List β) (c c₁ : Core) : Prop :=
  c₁.out.filterMap g = c.out.filterMap g ++ l

section
variable {β : Type} {g : Effect → Option β} {l l' : List β} {v : ClientId → UInt8} {P : Audience}
  {q : ClientId → Why → Bytes → Prop} {c c₁ c₂ : Core} {env : Env}

theorem Appends.trans (h₁ : Appends g l c c₁) (h₂ : Appends g l' c₁ c₂) : Appends g (l ++ l') c c₂ := by
  rw [Appends, h₂, h₁, List.append_assoc]

theorem Appends.of_out {es : List Effect} (h : c₁.out = c.out ++ es) : Appends g (es.filterMap g) c c₁ := by
  rw [Appends, h, List.filterMap_append]

theorem Speaks.appends_nil (h : Speaks v P q c c₁) (hg : ∀ e : Effect, e.Spoken v P q → g e = none) :
    Appends g [] c c₁ := by
  obtain ⟨es, hout, hes⟩ := h.out
  have hnil : es.filterMap g = [] := List.filterMap_eq_nil_iff.mpr fun e he => hg e (hes e he)
  exact hnil ▸ .of_out hout

theorem Speaks.echoes_nil (t : Ticket) (cid : ClientId) (h : Speaks v P q c c₁)
    (hq : ∀ cid t payload, ¬q cid (.echo t) payload) : Appends (echoTo t cid) [] c c₁ := by
  refine h.appends_nil fun e he => ?_
  cases e with
  | client cid' who version frame why =>
    obtain ⟨-, -, payload, -, hpayload⟩ := he
    cases why with
    | echo t' => exact absurd hpayload (hq cid' t' payload)
    | _ => rfl
  | _ => rfl

theorem Speaks.rows_nil (h : Speaks v P q c c₁) (hP : ∀ e, P.emits e → storedRow e = none) :
    Appends storedRow [] c c₁ := by
  refine h.appends_nil fun e he => ?_
  cases e with
  | client => rfl
  | _ => exact hP _ he

theorem storeMessage_appends (c : Core) (env : Env) (msg : NewMessage) :
    ∃ row, row.frame = some msg.frame ∧ row.origin = msg.origin ∧
    Appends storedRow (if env.dbOk .insertMessage = true then [row] else []) c (c.storeMessage env msg) ∧
    ∀ t cid, Appends (echoTo t cid) [] c (c.storeMessage env msg) := by
  refine ⟨c.db.newRow env.unix msg, rfl, NodeState.newRow_origin, ?_⟩
  by_cases hok : env.dbOk .insertMessage = true
  · obtain ⟨rows, hform, -⟩ := storeMessage_form c msg hok
    have hout : (c.storeMessage env msg).out = c.out ++ [.stored (c.db.newRow env.unix msg) c.db.clients.keys] := by
      rw [hform]
    rw [if_pos hok]
    exact ⟨.of_out hout, fun t cid => .of_out hout⟩
  · have hout : (c.storeMessage env msg).out = c.out ++ [] := by rw [storeMessage, if_neg hok, List.append_nil]
    rw [if_neg hok]
    exact ⟨.of_out hout, fun t cid => .of_out hout⟩

theorem echoesTo_deliveries {l : List ClientId} {cid : ClientId} {t : Ticket} {payload : Bytes} (hnodup : l.Nodup) :
    echoesTo t cid (l.map fun cid => c.delivery cid payload (.echo t)) =
      if cid ∈ l then [messageFrameFor (c.protocolVersion cid) payload] else [] := by
  induction l with
  | nil => rfl
  | cons cid' l ih =>
    obtain ⟨hfresh, hnodup⟩ := List.nodup_cons.mp hnodup
    rw [List.map_cons, echoesTo, List.filterMap_cons, ← echoesTo, ih hnodup]
    by_cases hcid : cid' = cid
    · subst hcid
      simp [echoTo, delivery, hfresh]
    · have hne : cid ≠ cid' := Ne.symm hcid
      simp [echoTo, delivery, hcid, hne]

/-- An echo goes to whoever is connected at one moment, but for its sender. -/
theorem synthesizeEcho_appends (env : Env) (f : InFlight) (sender : ClientId) (echo : NewMessage) (ht : Told v P c) :
    ∃ row, row.frame = some echo.frame ∧ row.origin = f.origin ∧
      Appends storedRow (if env.dbOk .insertMessage = true then [row]
        else []) c (c.synthesizeEcho env sender f echo) ∧
      ∀ cid, Appends (echoTo f.ticket cid) (if cid ∈ c.clients.lock.channels ∧ cid ≠ sender then
        [messageFrameFor (v cid) echo.frame] else []) c (c.synthesizeEcho env sender f echo) := by
  have hlock : Told v P c.lockClients := ht.lock
  have hout : (c.broadcastToOthers (some sender) echo.frame (.echo f.ticket)).out = c.out ++
      (c.lockClients.clients.channels.filter fun cid => some sender != some cid).map fun cid =>
        c.lockClients.delivery cid echo.frame (.echo f.ticket) := rfl
  obtain ⟨row, hframe, horigin, hrow, hnone⟩ := storeMessage_appends
    (c.broadcastToOthers (some sender) echo.frame (.echo f.ticket)) env { echo with origin := f.origin }
  refine ⟨row, hframe, horigin, ?_, fun cid => ?_⟩
  · have hsilent : Appends storedRow [] c (c.broadcastToOthers (some sender) echo.frame (.echo f.ticket)) := by
      have hnil (l : List ClientId) :
          (l.map fun cid => c.lockClients.delivery cid echo.frame (.echo f.ticket)).filterMap
          storedRow = [] := by
        simp [List.filterMap_map, Function.comp_def, delivery, storedRow]
      exact hnil _ ▸ .of_out hout
    exact hsilent.trans hrow
  · have hecho : Appends (echoTo f.ticket cid) _ c (c.broadcastToOthers (some sender) echo.frame (.echo f.ticket)) :=
      .of_out hout
    have hall := hecho.trans (hnone f.ticket cid)
    rw [List.append_nil, ← echoesTo, echoesTo_deliveries (hlock.valid.nodup.filter _)] at hall
    have hmem : cid ∈ (c.lockClients.clients.channels.filter fun cid => some sender != some cid) ↔
        cid ∈ c.clients.lock.channels ∧ cid ≠ sender := by
      rw [List.mem_filter, lockClients]
      exact and_congr_right fun _ => by rw [bne_iff_ne, ne_eq, Option.some.injEq]; exact ne_comm
    by_cases hcid : cid ∈ c.clients.lock.channels ∧ cid ≠ sender
    · rw [if_pos (hmem.mpr hcid), hlock.connected cid hcid.1] at hall
      rw [if_pos hcid]
      exact hall
    · rw [if_neg (fun h => hcid (hmem.mp h))] at hall
      rw [if_neg hcid]
      exact hall

/-! ### Acceptance -/

variable {f : InFlight} {frame : Bytes} {code : UInt8}

theorem deliverReply_speaks (env : Env) (f : InFlight) (code : UInt8) (frame : Bytes) (ht : Told v P c)
    (hack : ∀ t ack, P.emits (.ackPending t ack)) :
    Speaks v P (fun _ why _ => why = .reply f.ticket ∨ why = .fanout f.ticket) c (c.deliverReply env f code frame) := by
  have hreply :
      Speaks v P (fun _ why _ => why = .reply f.ticket ∨ why = .fanout f.ticket) c
      (c.replyToClient env f code frame) := by
    unfold replyToClient
    split
    · rename_i cid _
      have hrecord : Speaks v P (fun _ why _ => why = .reply f.ticket ∨ why = .fanout f.ticket) c
          (c.recordAck env cid f.ticket code frame) := by
        unfold recordAck
        split
        · have hspoken (ack : Bytes) : (Effect.ackPending f.ticket ack).Spoken v P
              (fun _ why _ => why = .reply f.ticket ∨ why = .fanout f.ticket) := hack f.ticket ack
          exact ⟨ht.of_eq rfl rfl, .refl, _, rfl, by simpa using hspoken _⟩
        · exact .refl ht
      exact hrecord.trans fun ht => sendToClient_speaks ht (Or.inl rfl)
    · exact .refl ht
  rw [deliverReply_eq]
  split
  · exact hreply.trans fun ht => broadcastToOthers_speaks ht fun _ _ => Or.inr rfl
  · exact hreply

theorem deliverReply_naming : (c.deliverReply env f code frame).naming = c.naming := by
  have hreply : (c.replyToClient env f code frame).naming = c.naming := by
    unfold replyToClient
    split
    · refine sendToClient_talks.naming.trans ?_
      unfold recordAck
      dsimp only
      split <;> rfl
    · rfl
  rw [deliverReply_eq]
  split
  · exact broadcastToOthers_talks.naming.trans hreply
  · exact hreply

/-- Accepting a message does nothing else. -/
theorem onCommandAccepted_send (hsend : f.cmdCode = 0x02 ∨ f.cmdCode = 0x03) :
    c.onCommandAccepted env f = (c.emit (.accepted f.request)).echoAccepted env f := by
  have haccepted : c.acceptance f = c.emit (.accepted f.request) := by
    unfold acceptance
    rcases hsend with hcode | hcode <;> cases f.clientId <;> simp [hcode]
  have hafter (c : Core) : c.afterAccepted env f = c := by
    unfold afterAccepted
    rcases hsend with hcode | hcode <;> simp [hcode]
  rw [onCommandAccepted_eq, haccepted, hafter]

theorem echoAccepted_send (env : Env) {sender : ClientId} (hclient : f.clientId = some sender)
    (hsend : f.payload.IsSend) (hkey : c.radioPubkey ≠ none) :
    ∃ echo, c.EchoOf f echo ∧ c.echoAccepted env f = c.synthesizeEcho env sender f echo := by
  obtain ⟨pk, hpk⟩ := Option.ne_none_iff_exists'.mp hkey
  rcases hsend with ⟨hcode, hlen⟩ | ⟨hcode, hlen⟩
  · have hcode : f.cmdCode = 0x02 := hcode
    refine ⟨_, .contact hpk hcode hlen, ?_⟩
    simp [echoAccepted, hclient, hcode, hlen, synthesizeContactEcho, hpk]
  · have hcode : f.cmdCode = 0x03 := hcode
    refine ⟨_, .channel hpk hcode hlen, ?_⟩
    simp [echoAccepted, hclient, hcode, hlen, synthesizeChannelEcho, hpk]

/-- The frame that accepts a message writes nothing to the cache. -/
theorem cacheResponse_of_send {p : Command} (hsend : p.code = 0x02 ∨ p.code = 0x03)
    (hends : (awaitingFor p).classify code = (true, true)) (hne : code ≠ 0x01) :
    c.cacheResponse env code frame = .ok c := by
  have hcode : code = 0x06 ∨ code = 0x00 := by
    rcases hsend with h | h
    · exact Or.inl (by simpa [awaitingFor, h, Awaiting.classify, hne] using hends)
    · exact Or.inr (by simpa [awaitingFor, h, Awaiting.classify, hne] using hends)
  rcases hcode with rfl | rfl <;> rfl

theorem aside_stores_nothing {e : Effect} (h : (aside env).Emits e) : storedRow e = none := by
  cases h with
  | stored _ h =>
    cases h with
    | frame hframe => exact hframe.elim
    | echo h => exact h.done.elim
  | logs h => cases h <;> rfl
  | radio | init | broadcast => rfl

/-- The turn in which the radio accepts a message: its echo goes to the others, and it is stored if the database
    takes it. -/
theorem handleRadioRx_send {sender : ClientId} (ht : Told v .any c) (h : c.handleRadioRx env frame = .ok c₁)
    (hslot : c.inFlight = some f) (hawaiting : f.awaiting = awaitingFor f.payload) (hclient : f.clientId = some sender)
    (hsend : f.payload.IsSend) (hcode : frame.head? = some code) (hends : f.awaiting.classify code = (true, true))
    (hne : code ≠ 0x01) (hkey : c.radioPubkey ≠ none) :
    ∃ echo row t, c.EchoOf f echo ∧ row.frame = some echo.frame ∧ row.origin = f.origin ∧ c.clients.Onward t ∧
      Appends storedRow (if env.dbOk .insertMessage = true then [row] else []) c c₁ ∧
      ∀ cid, Appends (echoTo f.ticket cid)
        (if cid ∈ t.channels ∧ cid ≠ sender then [messageFrameFor (v cid) echo.frame] else []) c c₁ := by
  have hcmd : f.cmdCode = 0x02 ∨ f.cmdCode = 0x03 := hsend.imp And.left And.left
  obtain ⟨c', hc', rfl⟩ := handleRadioRx_completed h hslot hcode hends
  obtain rfl : c = c' := Except.ok.inj ((cacheResponse_of_send hcmd (hawaiting ▸ hends) hne).symm.trans hc')
  -- Nobody is sent an echo, and nothing is stored, but for the echo itself.
  let P : Audience := ⟨fun _ => True, fun e => storedRow e = none⟩
  have ht : Told v P c := ht.forget
  have hraw : Speaks v P (fun _ _ _ => False) c (c.recordRaw env code frame) := .of_if ht fun _ => .of_eq ht rfl rfl rfl
  have hraw_naming : (c.recordRaw env code frame).naming = c.naming := by
    unfold recordRaw
    split <;> rfl
  have hreply := deliverReply_speaks env f code frame hraw.told fun _ _ => rfl
  have hreply_naming : ((c.recordRaw env code frame).deliverReply env f code frame).naming = c.naming :=
    deliverReply_naming.trans hraw_naming
  have honward := hraw.clients.trans hreply.clients
  generalize (c.recordRaw env code frame).deliverReply env f code frame = c₂ at hreply hreply_naming honward
  have hcomplete :
      c₂.complete env f code = ((({ c₂ with inFlight := none }.emit (.ended f.request (.replied code))).emit
      (.accepted f.request)).echoAccepted env f).advanceQueue env := by
    unfold complete
    dsimp only
    rw [if_pos hne, onCommandAccepted_send hcmd]
  have hfreed :
      Speaks v P (fun _ _ _ => False) c₂ (({ c₂ with inFlight := none }.emit (.ended f.request (.replied code))).emit
      (.accepted f.request)) := by
    refine ⟨hreply.told.of_eq rfl rfl, .refl, [.ended f.request (.replied code), .accepted f.request],
      by simp [emit], ?_⟩
    simp [Effect.Spoken, P, storedRow]
  have hnaming :
      (({ c₂ with inFlight := none }.emit (.ended f.request (.replied code))).emit (.accepted f.request)).naming =
      c.naming := hreply_naming
  generalize ({ c₂ with inFlight := none }.emit (.ended f.request (.replied code))).emit (.accepted f.request) = c₃
    at hcomplete hfreed hnaming
  have hkey₃ : c₃.radioPubkey ≠ none := by
    simp only [naming, Prod.mk.injEq] at hnaming
    exact hnaming.1 ▸ hkey
  obtain ⟨echo, hecho, heq⟩ := echoAccepted_send env hclient hsend hkey₃
  obtain ⟨row, hframe, horigin, hrow, hechoes⟩ := synthesizeEcho_appends env f sender echo hfreed.told
  have hechoed : Told v P (c₃.synthesizeEcho env sender f echo) := by
    have hspeaks : Speaks v .any (fun _ _ _ => True) c₃ (c₃.synthesizeEcho env sender f echo) :=
      synthesizeEcho_speaks hfreed.told.forget (fun _ _ => trivial) fun _ _ _ _ => trivial
    exact hspeaks.told.forget
  have hadvance := advanceQueue_speaks env hechoed fun e he => aside_stores_nothing he
  rw [hcomplete, heq]
  refine ⟨echo, row, _, hecho.of_naming hnaming, hframe, horigin,
    ((honward.trans hfreed.clients).trans Clients.lock_onward), ?_, fun cid => ?_⟩
  · have hbefore := ((hraw.rows_nil fun _ h => h).trans (hreply.rows_nil fun _ h => h)).trans
      (hfreed.rows_nil fun _ h => h)
    simpa using (hbefore.trans hrow).trans (hadvance.rows_nil fun _ h => h)
  · have hbefore := ((hraw.echoes_nil f.ticket cid fun _ _ _ h => h).trans
      (hreply.echoes_nil f.ticket cid (by simp))).trans (hfreed.echoes_nil f.ticket cid fun _ _ _ h => h)
    simpa using (hbefore.trans (hechoes cid)).trans (hadvance.echoes_nil f.ticket cid (by simp))

/-! ### Dispatch -/

/-- Commands that drop the cached SELF_INFO and DEVICE_INFO as they are sent. -/
def infoSetters : List UInt8 := [0x08, 0x0B, 0x0C, 0x0E, 0x15, 0x25, 0x26, 0x33]

/-- Neither SELF_INFO nor DEVICE_INFO is cached. -/
def InfoDropped (c : Core) : Prop := c.selfInfoRaw = none ∧ c.deviceInfoRaw = none

/-- `f` has just been sent, under the identity that its client has. -/
structure Sent (c : Core) (f : InFlight) : Prop where
  radio : .radio f.request ∈ c.out
  origin : f.origin = f.clientId.bind c.identityOf
  dropped : f.payload.code ∈ infoSetters → c.InfoDropped

/-- The request in flight has just been sent. -/
def Fresh (c : Core) : Prop := ∀ f, c.inFlight = some f → c.Sent f

/-- The request in flight was so before, or has just been sent. -/
def Dispatched (c c₁ : Core) : Prop := ∀ f, c₁.inFlight = some f →
  (∃ f₀, c.inFlight = some f₀ ∧ f₀.request = f.request ∧ f₀.origin = f.origin) ∨ c₁.Sent f

theorem invalidate_dropped {p : Command} (h : p.code ∈ infoSetters) : (c.invalidate env p).InfoDropped := by
  simp only [infoSetters, List.mem_cons, List.not_mem_nil, or_false] at h
  rcases h with h | h | h | h | h | h | h | h <;> simp only [invalidate, h] <;> exact ⟨rfl, rfl⟩

theorem Fresh.of_free (h : c.inFlight = none) : c.Fresh := fun f hslot => by rw [h] at hslot; cases hslot

theorem Sent.of_eq (h : c.Sent f) (hsessions : c₁.sessions = c.sessions) (hself : c₁.selfInfoRaw = c.selfInfoRaw)
    (hdevice : c₁.deviceInfoRaw = c.deviceInfoRaw) (hout : ∃ es, c₁.out = c.out ++ es) : c₁.Sent f := by
  obtain ⟨es, hout⟩ := hout
  have hsame : c₁.identityOf = c.identityOf := by
    funext cid
    rw [identityOf, identityOf, hsessions]
  refine ⟨hout ▸ List.mem_append_left _ h.radio, hsame ▸ h.origin, fun hcode => ?_⟩
  rw [InfoDropped, hself, hdevice]
  exact h.dropped hcode

theorem Fresh.of_eq (h : c.Fresh) (hslot : c₁.inFlight = c.inFlight) (hsessions : c₁.sessions = c.sessions)
    (hself : c₁.selfInfoRaw = c.selfInfoRaw) (hdevice : c₁.deviceInfoRaw = c.deviceInfoRaw)
    (hout : ∃ es, c₁.out = c.out ++ es) : c₁.Fresh := fun f hf =>
  (h f (hslot ▸ hf)).of_eq hsessions hself hdevice hout

theorem Fresh.dispatched (h : c₁.Fresh) : Dispatched c c₁ := fun f hf => Or.inr (h f hf)

theorem Dispatched.of_slot (h : c₁.inFlight = c.inFlight) : Dispatched c c₁ := fun f hf => Or.inl ⟨f, h ▸ hf, rfl, rfl⟩

theorem Dispatched.after (h : Dispatched c₁ c₂) (hslot : c₁.inFlight = c.inFlight) : Dispatched c c₂ := by
  intro f hf
  rcases h f hf with ⟨f₀, hf₀, hsame⟩ | hfresh
  · exact Or.inl ⟨f₀, hslot ▸ hf₀, hsame⟩
  · exact Or.inr hfresh

theorem startWith_fresh {r : Queued} : (c.startWith env r).Fresh := by
  obtain ⟨db, self, device, battery, hform, -⟩ := startWith_form c env r
  intro f hf
  rw [hform] at hf
  obtain rfl := Option.some.inj hf
  have hsame : (c.startWith env r).identityOf = c.identityOf := by
    funext cid
    rw [hform]
    rfl
  refine ⟨?_, by rw [hsame]; rfl, fun hcode => ?_⟩
  · rw [hform]
    exact List.mem_append_right _ (List.mem_singleton.mpr rfl)
  · have hdropped : ((c.emit (.radio r)).invalidate env r.payload).InfoDropped := invalidate_dropped hcode
    exact hdropped

theorem dispatchToRadio_fresh {r : Queued} (hfree : c.inFlight = none) : (c.dispatchToRadio env r).Fresh := by
  rw [dispatchToRadio_eq]
  split
  · exact startWith_fresh
  · exact .of_free ((failTo_still (q := r)).slot.trans hfree)

theorem advanceFrom_fresh {qs : List Queued} (hfree : c.inFlight = none) : (c.advanceFrom env qs).Fresh := by
  induction qs generalizing c with
  | nil => exact .of_free hfree
  | cons r rest ih =>
    have hfree' : ((c.popped rest).isEligible r).2.inFlight = none :=
      (isEligible_still (p := fun _ => True)).slot.trans hfree
    simp only [advanceFrom, show { c with pendingQueue := rest } = c.popped rest from rfl]
    cases ((c.popped rest).isEligible r).1 with
    | false => exact ih hfree'
    | true =>
      simp only [Bool.not_true, Bool.false_eq_true, if_false]
      split
      · exact dispatchToRadio_fresh hfree'
      · rename_i hnone
        exact ih (by simpa using hnone)

theorem advanceQueue_fresh (hfree : c.inFlight = none) : (c.advanceQueue env).Fresh := advanceFrom_fresh hfree

theorem enqueueOrDispatch_dispatched {clientId : Option ClientId} {p : Command} :
    Dispatched c (c.enqueueOrDispatch env clientId p) := by
  unfold enqueueOrDispatch
  split
  · rename_i hnone
    have hfree : c.inFlight = none := Option.isNone_iff_eq_none.mp hnone
    exact (dispatchToRadio_fresh (c := (c.hand clientId p).2) hfree).dispatched
  · exact .of_slot rfl

theorem advanceFromSync_fresh {qs : List Queued} (hsync : ∀ q ∈ qs, IsSync q) (hfree : c.inFlight = none) :
    (c.advanceFromSync env qs).Fresh := by
  induction qs generalizing c with
  | nil => exact .of_free hfree
  | cons r rest ih =>
    have hfree' : ((c.popped rest).isEligible r).2.inFlight = none :=
      (isEligible_still (p := fun _ => True)).slot.trans hfree
    have ih' {c' : Core} (hfree : c'.inFlight = none) : (c'.advanceFromSync env rest).Fresh :=
      ih (fun q hq => hsync q (List.mem_cons_of_mem _ hq)) hfree
    simp only [advanceFromSync, show { c with pendingQueue := rest } = c.popped rest from rfl]
    split
    · exact ih' hfree'
    · split
      · exact .of_free hfree'
      · split
        · exact .of_free ((failTo_still (q := r)).slot.trans hfree')
        · intro f hf
          obtain rfl := Option.some.inj hf
          refine ⟨List.mem_append_right _ (List.mem_singleton.mpr rfl), rfl, fun hcode => ?_⟩
          have hcode : r.payload.code ∈ infoSetters := hcode
          rcases (hsync r List.mem_cons_self).2 with hread | hread <;> rw [hread] at hcode <;>
            simp [infoSetters] at hcode

theorem syncFromRadio_fresh (env : Env) (hfree : c.inFlight = none) (hqueue : c.pendingQueue = []) :
    (c.syncFromRadio env).Fresh := by
  obtain ⟨-, hslot, -, hsync⟩ := syncQueued_moves True env none hqueue
  rw [syncFromRadio_eq]
  split
  · exact advanceFromSync_fresh hsync (hslot.trans hfree)
  · exact .of_free (hslot.trans hfree)

theorem refreshOnPush_dispatched : Dispatched c (c.refreshOnPush env code frame) := by
  unfold refreshOnPush
  split
  · dsimp only
    split
    · rename_i hnone
      exact (advanceQueue_fresh (Option.isNone_iff_eq_none.mp hnone)).dispatched
    · exact .of_slot rfl
  · exact .of_slot rfl

theorem routeUnmatched_dispatched : Dispatched c (c.routeUnmatched env code frame) := by
  have hack : (c.tryRouteAck code frame).2.inFlight = c.inFlight := tryRouteAck_still.slot
  unfold routeUnmatched
  dsimp only
  split
  · exact .of_slot hack
  · split
    · have hpush : Dispatched (c.tryRouteAck code frame).2
          (((c.tryRouteAck code frame).2.refreshOnPush env code frame).emit (.broadcast frame)) := fun f hf =>
        (refreshOnPush_dispatched f hf).imp_right fun h => h.of_eq rfl rfl rfl ⟨_, rfl⟩
      exact hpush.after hack
    · exact .of_slot hack

theorem complete_fresh : (c.complete env f code).Fresh := by
  unfold complete
  dsimp only
  split
  · exact advanceQueue_fresh onCommandAccepted_slot
  · exact advanceQueue_fresh rfl

theorem routeFrame_dispatched : Dispatched c (c.routeFrame env code frame) := by
  rw [routeFrame_eq]
  split
  · exact routeUnmatched_dispatched
  · rename_i f hslot
    split
    · exact complete_fresh.dispatched
    · intro f' hf'
      obtain rfl := Option.some.inj hf'
      exact Or.inl ⟨f, hslot, rfl, rfl⟩
    · exact routeUnmatched_dispatched

theorem handleRadioRx_dispatched (h : c.handleRadioRx env frame = .ok c₁) : Dispatched c c₁ := by
  unfold handleRadioRx at h
  split at h
  · cases h
    exact .of_slot rfl
  · obtain ⟨-, -, h⟩ := Except.of_bind_eq_ok h
    obtain ⟨c', hc', h⟩ := Except.of_bind_eq_ok h
    cases h
    have hkept : Kept (Effect.Side none) c c' := cacheResponse_kept hc'
    exact routeFrame_dispatched.after ((recordRaw_still (p := fun _ => True)).slot.trans hkept.slot)

theorem serveFromRadio_dispatched {cmd : ClientCommand} {p : Command} : Dispatched c (c.serveFromRadio env cmd p) := by
  have hcache : Still (Effect.Side none) c (c.tryServeFromCache env p.code cmd).2 := tryServeFromCache_still
  unfold serveFromRadio
  dsimp only
  split
  · split
    · exact .of_slot ((hcache.trans notifyMissed_still).slot)
    · exact .of_slot hcache.slot
  · exact enqueueOrDispatch_dispatched.after hcache.slot

theorem serveCommand_dispatched {cmd : ClientCommand} {p : Command} : Dispatched c (c.serveCommand env cmd p) := by
  have hregister : Still (Effect.Side none) c (if p.code = 0x01 then c.registerSession env cmd else c) :=
    .of_if fun _ => registerSession_still
  have hbefore : Still (Effect.Side none) c
      ((if p.code = 0x01 then c.registerSession env cmd else c).recordVersion p.code cmd) :=
    hregister.trans recordVersion_still
  rw [serveCommand_eq]
  refine Dispatched.after ?_ hbefore.slot
  generalize (if p.code = 0x01 then c.registerSession env cmd else c).recordVersion p.code cmd = c
  have hreplay : Still (Effect.Side none) c (c.replayNextMissed env cmd.clientId).2 := replayNextMissed_still
  unfold serveIdentified
  dsimp only
  split
  · split
    · exact .of_slot hreplay.slot
    · exact serveFromRadio_dispatched.after hreplay.slot
  · exact serveFromRadio_dispatched

theorem handleClientCommand_dispatched {cmd : ClientCommand} (h : c.handleClientCommand env cmd = .ok c₁) :
    Dispatched c c₁ := by
  unfold handleClientCommand at h
  split at h
  · cases h
    exact .of_slot rfl
  · dsimp only at h
    split at h
    · cases h
      exact .of_slot rfl
    · obtain ⟨-, -, h⟩ := Except.of_bind_eq_ok h
      cases h
      exact serveCommand_dispatched.after rfl

theorem checkInFlightTimeout_dispatched : Dispatched c (c.checkInFlightTimeout env) := by
  unfold checkInFlightTimeout
  split
  · exact .of_slot rfl
  · rename_i f _
    split
    · exact (advanceQueue_fresh (failTo_still (q := f.request)).slot).dispatched
    · exact .of_slot rfl

theorem runMaintenance_dispatched : Dispatched c (c.runMaintenance env) := by
  rw [runMaintenance_eq]
  unfold resync
  dsimp only
  split
  · split
    · rename_i hnone
      have hfresh : ((c.pushBack none getContacts).advanceQueue env).Fresh :=
        advanceQueue_fresh (Option.isNone_iff_eq_none.mp hnone)
      refine Fresh.dispatched ?_
      exact hfresh.of_eq rfl rfl rfl rfl ⟨[], (List.append_nil _).symm⟩
    · exact .of_slot rfl
  · exact .of_slot rfl

theorem attemptRadio_fresh {a : Attempt} {ok : Bool} (h : c.attemptRadio a = .ok (ok, c₁)) (hfree : c.inFlight = none)
    (hqueue : c.pendingQueue = []) : c₁.Fresh ∧ (ok = false → c₁.inFlight = none ∧ c₁.pendingQueue = []) := by
  cases attemptRadio_attempted h with
  | unconnected => exact ⟨.of_free hfree, fun _ => ⟨hfree, hqueue⟩⟩
  | uninitialized hstill =>
    exact ⟨.of_free (hstill.slot.trans hfree), fun _ => ⟨hstill.slot.trans hfree, hstill.queue.trans hqueue⟩⟩
  | synced hstill =>
    have hfresh := syncFromRadio_fresh a.syncEnv (hstill.slot.trans hfree) (hstill.queue.trans hqueue)
    exact ⟨hfresh.of_eq rfl rfl rfl rfl ⟨[], (List.append_nil _).symm⟩, nofun⟩

theorem reconnectLoop_fresh {attempts : List Attempt} (h : c.reconnectLoop attempts = .ok c₁)
    (hfree : c.inFlight = none) (hqueue : c.pendingQueue = []) : c₁.Fresh := by
  induction attempts generalizing c with
  | nil =>
    cases h
    exact .of_free hfree
  | cons a rest ih =>
    obtain ⟨⟨ok, c₂⟩, hc₂, h⟩ := Except.of_bind_eq_ok h
    obtain ⟨hfresh, hnone⟩ := attemptRadio_fresh hc₂ hfree hqueue
    cases ok with
    | true =>
      cases h
      exact hfresh
    | false => exact ih h (hnone rfl).1 (hnone rfl).2

theorem step_dispatched {frontend : List (List FrontendOp)} {e : Event} (h : c.step frontend e = .ok c₁) :
    Dispatched c c₁ := by
  suffices hbegin : Dispatched (c.begin frontend) c₁ from hbegin.after rfl
  cases e with
  | command env cmd => exact handleClientCommand_dispatched h
  | radio env payload => exact handleRadioRx_dispatched h
  | timeoutTick env =>
    cases h
    exact checkInFlightTimeout_dispatched
  | maintenanceTick env =>
    cases h
    exact runMaintenance_dispatched
  | disconnected attempts =>
    obtain ⟨hfree, hqueue⟩ := failAll_drain.done_free (unlinked_free (c := c.begin frontend))
    exact (reconnectLoop_fresh h hfree hqueue).dispatched
  | idle =>
    cases h
    exact .of_slot rfl

/-! ### Turns -/

variable {frontend : List (List FrontendOp)} {e : Event}

/-- Only a frame of the radio accepts a request. -/
theorem radio_of_accepts (h : (e.scope (c.begin frontend)).Accepts f) : ∃ env frame code, e = .radio env frame ∧
    c.inFlight = some f ∧ frame.head? = some code ∧ f.awaiting.classify code = (true, true) ∧ code ≠ 0x01 := by
  cases e with
  | radio env frame =>
    obtain ⟨hdone, _, code, rfl, hcode, hends, hne⟩ := h
    exact ⟨env, _, code, rfl, hdone, hcode, hends, hne⟩
  | command | timeoutTick | maintenanceTick | disconnected | idle => exact h.done.elim

/-- What a frame of the radio completes it replies to. -/
theorem completed_ended {env : Env} {frame : Bytes} (hs : c.step frontend (.radio env frame) = .ok c₁)
    (hslot : c.inFlight = some f) (hcode : frame.head? = some code)
    (hends : f.awaiting.classify code = (true, true)) : .ended f.request (.replied code) ∈ c₁.out := by
  obtain ⟨c', -, rfl⟩ := handleRadioRx_completed hs hslot hcode hends
  have hmoves : Moves True env (some f.ticket) ((c'.recordRaw env code frame).finish env f code frame)
      (((c'.recordRaw env code frame).deliverReply env f code frame).complete env f code) := complete_moves
  obtain ⟨es, hout, -⟩ := hmoves.out
  rw [hout]
  exact List.mem_append_left _ (List.mem_append_right _ (List.mem_singleton.mpr rfl))

theorem accepted_ended (h : (e.scope (c.begin frontend)).Accepts f) (hs : c.step frontend e = .ok c₁) :
    ∃ how, .ended f.request how ∈ c₁.out ∧ how.IsAcceptance := by
  obtain ⟨env, frame, code, rfl, hslot, hcode, hends, hne⟩ := radio_of_accepts h
  exact ⟨.replied code, completed_ended hs hslot hcode hends, hne⟩

/-- What a turn emits: echoes of what it accepts, and rows of its scope. -/
theorem step_echoing (ht : Told v .any c) (hs : c.step frontend e = .ok c₁) : ∀ x ∈ c₁.out,
    x.Spoken (e.asked v (c.begin frontend)) (e.audience (c.begin frontend)) fun _ why _ =>
      ∀ t, why = .echo t → ∃ f, (e.scope (c.begin frontend)).Accepts f ∧ f.ticket = t := by
  refine (step_tells (I := fun _ => True) hs ht trivial (fun _ _ _ _ => trivial) ?_).1.out
  intro _ _ cid why payload _ hsource
  cases hsource with
  | echo h => exact fun t heq => ⟨_, h, Why.echo.inj heq⟩
  | _ => nofun

/-- A turn that ends a request with an acceptance is the radio's, and the request was in flight. -/
theorem ended_accepted (ht : Told v .any c) (hs : c.step frontend e = .ok c₁) {r : Queued} {how : Ending}
    (hended : .ended r how ∈ c₁.out) (haccept : how.IsAcceptance) :
    ∃ f, (e.scope (c.begin frontend)).Accepts f ∧ f.request = r := by
  have hemits : (e.scope (c.begin frontend)).Emits (.ended r how) := step_echoing ht hs _ hended
  cases hemits with
  | logs h =>
    cases h with
    | ended h =>
      cases how with
      | replied code =>
        obtain ⟨f, frame, hdone, hrequest, hframe, hcode, hends⟩ := h
        exact ⟨f, ⟨hdone, frame, code, hframe, hcode, hends, haccept⟩, hrequest⟩
      | timedOut | linkLost | drained | sendFailed | clientGone => exact haccept.elim

/-- A turn echoes only what it accepts. -/
theorem echo_accepted (ht : Told v .any c) (hs : c.step frontend e = .ok c₁) {t : Ticket} {cid : ClientId}
    {sent : Bytes} (hsent : sent ∈ echoesTo t cid c₁.out) :
    ∃ r how, .ended r how ∈ c₁.out ∧ how.IsAcceptance ∧ r.ticket = t := by
  obtain ⟨x, hx, hecho⟩ := List.mem_filterMap.mp hsent
  have hspoken := step_echoing ht hs x hx
  cases x with
  | client cid' who version frame why =>
    cases why with
    | echo t' =>
      obtain ⟨-, -, payload, -, haccept⟩ := hspoken
      obtain ⟨f, hf, rfl⟩ := haccept t' rfl
      obtain ⟨how, hended, hhow⟩ := accepted_ended hf hs
      simp only [echoTo, Option.ite_none_right_eq_some] at hecho
      exact ⟨f.request, how, hended, hhow, hecho.1.2⟩
    | _ => cases hecho
  | _ => cases hecho

/-- A turn stores a message of the radio, or one that it accepts. -/
theorem row_accepted (ht : Told v .any c) (hs : c.step frontend e = .ok c₁) {row : MessageRow}
    (hrow : row ∈ storedRows c₁.out) :
    (∃ env frame, e = .radio env frame ∧ row.frame = some frame ∧ row.origin = none) ∨
      ∃ r how, .ended r how ∈ c₁.out ∧ how.IsAcceptance ∧ (r.payload.code = 0x02 ∨ r.payload.code = 0x03) := by
  obtain ⟨x, hx, hstored⟩ := List.mem_filterMap.mp hrow
  have hspoken := step_echoing ht hs x hx
  cases x with
  | stored row' known =>
    obtain rfl := Option.some.inj hstored
    have hemits : (e.scope (c.begin frontend)).Emits (.stored row' known) := hspoken
    cases hemits with
    | logs h => cases h
    | stored _ h =>
      cases h with
      | frame hframe hcode hmessage hrow horigin =>
        cases e with
        | radio env payload => exact Or.inl ⟨env, _, rfl, hframe ▸ hrow, horigin⟩
        | disconnected attempts =>
          rcases hframe.2 with h | h <;> rw [h] at hcode <;> obtain rfl := Option.some.inj hcode <;>
            exact absurd hmessage (by decide)
        | command | timeoutTick | maintenanceTick | idle => exact hframe.elim
      | echo h hclient hsend horigin =>
        obtain ⟨how, hended, hhow⟩ := accepted_ended h hs
        exact Or.inr ⟨_, how, hended, hhow, hsend⟩
  | _ => cases hstored

/-! ### Runs -/

/-- Where the turn inserts a message, the database takes it. -/
def Event.Inserts : Event → Prop
  | .radio env _ => env.dbOk .insertMessage = true
  | _ => True

/-- A turn sends the echo of a request to each client that is connected at one moment, other than its sender, and
    stores the message, under `who` and once. -/
def Lap.Echoes (s : Lap) (r : Queued) (sender : ClientId) (who : Option Identity) : Prop :=
  ∃ f echo row t, f.request = r ∧ s.before.EchoOf f echo ∧ storedRows s.after.out = [row] ∧
    row.frame = some echo.frame ∧
    row.origin = who ∧ (s.before.begin s.frontend).clients.Onward t ∧ ∀ cid, echoesTo r.ticket cid s.after.out =
      if cid ∈ t.channels ∧ cid ≠ sender then [messageFrameFor (s.before.protocolVersion cid) echo.frame] else []

/-- A turn echoes nothing for a request, and stores nothing for it: only messages of the radio, or what another
    request sent. -/
structure Lap.Silent (s : Lap) (r : Queued) : Prop where
  echoes : ∀ cid, echoesTo r.ticket cid s.after.out = []
  rows :
    ∀ row ∈ storedRows s.after.out,
    (∃ env frame, s.event = .radio env frame ∧ row.frame = some frame ∧ row.origin = none) ∨
    ∃ r' how, r' ≠ r ∧ .ended r' how ∈ s.after.out ∧ how.IsAcceptance ∧
      (r'.payload.code = 0x02 ∨ r'.payload.code = 0x03)

variable {config : Config} {db : NodeState} {first : Attempt} {attempts : List Attempt} {c₀ : Core} {s : Lap}
  {l l₁ l₂ : List Lap} {r : Queued}

/-- What the proxy starts with in flight is its own, and reads contacts or channels. -/
theorem start_internal (hstart : (Core.new config db).start env first attempts = .ok c₀)
    (hslot : c₀.inFlight = some f) :
    f.clientId = none ∧ (f.payload.code = 0x04 ∨ f.payload.code = 0x1E ∨ f.payload.code = 0x1F) := by
  have hreach : Reachable (c₀.out ++ []) c₀ :=
    ⟨config, db, env, first, attempts, c₀, [], trivial, fun _ _ => trivial, hstart, .refl c₀, rfl⟩
  obtain ⟨ha, -⟩ : Accounted False (c₀.out ++ []) c₀ ∧ (False → c₀.Idle) :=
    hreach.accounted False.elim fun _ _ _ => False.elim
  have hhanded : f.request ∈ handedOver c₀.out := by
    have hpresent : f.request ∈ c₀.lane.present := by simp [Lane.present, lane, hslot]
    simpa using ha.handed_of_present hpresent
  have hemits : (startScope env (first :: attempts)).Emits (.handed f.request) :=
    (start_emits hstart).out _ (mem_handedOver.mp hhanded)
  have hnone : f.request.clientId = none ∧
      (f.request.payload.code = 0x04 ∨ f.request.payload.code = 0x1E ∨ f.request.payload.code = 0x1F) := by
    generalize f.request = r at hemits
    cases hemits with
    | logs h =>
      cases h with
      | client hcmd => exact hcmd.elim
      | internal hcode => exact ⟨rfl, hcode⟩
  exact hnone

/-- A request was sent in one of some turns, under the identity that its client had then. -/
def SentIn (l : List Lap) (f : InFlight) : Prop :=
  ∃ d ∈ l, .radio f.request ∈ d.after.out ∧ f.origin = f.clientId.bind d.after.identityOf

theorem Trace.sent_since (h : Trace c₀ l c) (l₀ : List Lap)
    (h₀ : ∀ f, c₀.inFlight = some f → f.clientId.isSome → SentIn l₀ f) :
    ∀ f, c.inFlight = some f → f.clientId.isSome → SentIn (l₀ ++ l) f := by
  induction h generalizing l₀ with
  | nil c => rwa [List.append_nil]
  | @cons c c₁ c₂ frontend e l hs _ ih =>
    have hnext : ∀ f, c₁.inFlight = some f → f.clientId.isSome → SentIn (l₀ ++ [⟨c, frontend, e, c₁⟩]) f := by
      intro f hf hclient
      rcases step_dispatched hs f hf with ⟨f₀, hf₀, hrequest, horigin⟩ | hfresh
      · have hclient₀ : f₀.clientId = f.clientId := congrArg Queued.clientId hrequest
        obtain ⟨d, hd, hradio, horigin₀⟩ := h₀ f₀ hf₀ (hclient₀ ▸ hclient)
        exact ⟨d, List.mem_append_left _ hd, hrequest ▸ hradio, hclient₀ ▸ horigin ▸ horigin₀⟩
      · exact ⟨_, List.mem_append_right _ (List.mem_singleton.mpr rfl), hfresh.radio, hfresh.origin⟩
    intro f hf hclient
    have hall := ih _ hnext f hf hclient
    rwa [List.append_assoc] at hall

/-- A client's request in flight was sent in some turn, under the identity that its client had then. -/
theorem Trace.sent (h : Trace c₀ l c) (hinternal : ∀ f, c₀.inFlight = some f → f.clientId = none)
    (hslot : c.inFlight = some f) (hclient : f.clientId.isSome) : SentIn l f := by
  refine h.sent_since [] (fun f hf hclient => ?_) f hslot hclient
  rw [hinternal f hf] at hclient
  cases hclient

/-! ### The outcome of a message -/

theorem Trace.reachable (hstart : (Core.new config db).start env first attempts = .ok c₀) (h : Trace c₀ l c) :
    Reachable (c₀.out ++ history l) c :=
  ⟨config, db, env, first, attempts, c₀, history l, trivial, fun _ _ => trivial, hstart, h.run, rfl⟩

/-- A turn that accepts a message sends its echo, under the identity that sent it, and stores it if the database
    takes it. -/
theorem lap_sends {sender : ClientId} (hstart : (Core.new config db).start env first attempts = .ok c₀)
    (hbefore : Trace c₀ l₁ s.before) (hs : s.before.step s.frontend s.event = .ok s.after)
    (hclient : r.clientId = some sender) (hsend : r.payload.IsSend) (hkey : s.before.radioPubkey ≠ none) {how : Ending}
    (hended : .ended r how ∈ s.after.out) (haccept : how.IsAcceptance) :
    ∃ d ∈ l₁, .radio r ∈ d.after.out ∧ ∃ f echo row t, f.request = r ∧ s.before.EchoOf f echo ∧
    row.frame = some echo.frame ∧
      row.origin = d.after.identityOf sender ∧ (s.before.begin s.frontend).clients.Onward t ∧
      (s.event.Inserts → storedRows s.after.out = [row]) ∧ ∀ cid, echoesTo r.ticket cid s.after.out =
        if cid ∈ t.channels ∧ cid ≠ sender then [messageFrameFor (s.before.protocolVersion cid) echo.frame]
            else [] := by
  have hreach := hbefore.reachable hstart
  obtain ⟨ha, -⟩ : Accounted False _ s.before ∧ (False → s.before.Idle) :=
    hreach.accounted False.elim fun _ _ _ => False.elim
  obtain ⟨f, hf, rfl⟩ := ended_accepted hreach.told hs hended haccept
  obtain ⟨env, frame, code, hevent, hslot, hcode, hends, hne⟩ := radio_of_accepts hf
  have hclient' : f.clientId = some sender := hclient
  obtain ⟨d, hd, hradio, horigin⟩ := hbefore.sent (fun f hf => (start_internal hstart hf).1) hslot
    (by rw [hclient']; rfl)
  rw [hevent] at hs ⊢
  have ht : Told s.before.protocolVersion .any (s.before.begin s.frontend) := (hreach.told.begin fun _ => True).forget
  obtain ⟨echo, row, t, hecho, hframe, horigin', honward, hrows, hechoes⟩ :=
    handleRadioRx_send (c := s.before.begin s.frontend) ht hs hslot (ha.awaiting f hslot) hclient' hsend hcode
      hends hne hkey
  rw [hclient'] at horigin
  refine ⟨d, hd, hradio, f, echo, row, t, rfl, hecho.of_naming rfl, hframe, horigin'.trans horigin, honward,
    fun hinserts => ?_, hechoes⟩
  have hinserts : env.dbOk .insertMessage = true := hinserts
  rw [if_pos hinserts] at hrows
  exact hrows

/-- A turn that accepts a message echoes it. -/
theorem lap_echoes {sender : ClientId} (hstart : (Core.new config db).start env first attempts = .ok c₀)
    (hbefore : Trace c₀ l₁ s.before) (hs : s.before.step s.frontend s.event = .ok s.after)
    (hclient : r.clientId = some sender) (hsend : r.payload.IsSend) (hkey : s.before.radioPubkey ≠ none)
    (hinserts : s.event.Inserts) {how : Ending} (hended : .ended r how ∈ s.after.out) (haccept : how.IsAcceptance) :
    ∃ d ∈ l₁, .radio r ∈ d.after.out ∧ s.Echoes r sender (d.after.identityOf sender) := by
  obtain ⟨d, hd, hradio, f, echo, row, t, hf, hecho, hframe, horigin, honward, hrows, hechoes⟩ :=
    lap_sends hstart hbefore hs hclient hsend hkey hended haccept
  exact ⟨d, hd, hradio, f, echo, row, t, hf, hecho, hrows hinserts, hframe, horigin, honward, hechoes⟩

/-- A turn that does not accept a request is silent about it. -/
theorem lap_silent {h : List Effect} (ht : Told v .any s.before) (hs : s.before.step s.frontend s.event = .ok s.after)
    (ha : Accounted False h c) (hhistory : ∀ x ∈ s.after.out, x ∈ h) (hr : r ∈ handedOver h)
    (hno : ∀ how, .ended r how ∈ s.after.out → ¬how.IsAcceptance) : s.Silent r := by
  constructor
  · intro cid
    refine List.eq_nil_iff_forall_not_mem.mpr fun sent hsent => ?_
    obtain ⟨r', how, hended, haccept, hticket⟩ := echo_accepted ht hs hsent
    obtain rfl : r' = r := ha.eq_of_ticket (ha.handed_of_ended (hhistory _ hended)) hr hticket
    exact hno how hended haccept
  · intro row hrow
    refine (row_accepted ht hs hrow).imp_right ?_
    rintro ⟨r', how, hended, haccept, hcode⟩
    exact ⟨r', how, fun heq => hno how (heq ▸ hended) haccept, hended, haccept, hcode⟩

/-- A request that ends in one turn ends in no other. -/
theorem not_ended_elsewhere {how how' : Ending} {s' : Lap} (hone : (endings (history (l₁ ++ s :: l₂)) r).length ≤ 1)
    (hended : .ended r how ∈ s.after.out) (hs' : s' ∈ l₁ ++ l₂) : .ended r how' ∉ s'.after.out := by
  intro hended'
  have hhere : 0 < (endings s.after.out r).length := List.length_pos_of_mem (mem_endings.mpr hended)
  have hthere : 0 < (endings (history l₁) r).length + (endings (history l₂) r).length := by
    rcases List.mem_append.mp hs' with h | h
    · exact Nat.add_pos_left (List.length_pos_of_mem (mem_endings.mpr (mem_history.mpr ⟨s', h, hended'⟩))) _
    · exact Nat.add_pos_right _ (List.length_pos_of_mem (mem_endings.mpr (mem_history.mpr ⟨s', h, hended'⟩)))
  simp only [history_append, history_cons, endings_append, List.length_append] at hone
  omega

/-- A message that a client sends ends once: in an acceptance, whose turn echoes and stores it under the identity that
    sent it, or without a trace. -/
theorem send_echoed_once {sender : ClientId} (hstart : (Core.new config db).start env first attempts = .ok c₀)
    (htrace : Trace c₀ l c) (hready : ∀ s ∈ l, s.before.radioPubkey ≠ none ∧ s.event.Inserts)
    (hhanded : .handed r ∈ history l) (hclient : r.clientId = some sender) (hsend : r.payload.IsSend) :
    (endings (history l) r).length ≤ 1 ∧
    (∀ how, .ended r how ∈ history l → how.IsAcceptance → ∃ l₁ s l₂, l = l₁ ++ s :: l₂ ∧
      (∃ d ∈ l₁, .radio r ∈ d.after.out ∧ s.Echoes r sender (d.after.identityOf sender)) ∧ ∀ s' ∈ l₁ ++ l₂,
      s'.Silent r) ∧ ((∀ how, .ended r how ∈ history l → ¬how.IsAcceptance) → ∀ s ∈ l, s.Silent r) := by
  obtain ⟨ha, -⟩ : Accounted False (c₀.out ++ history l) c ∧ (False → c.Idle) :=
    (htrace.reachable hstart).accounted False.elim fun _ _ _ => False.elim
  have hr : r ∈ handedOver (c₀.out ++ history l) := mem_handedOver.mpr (List.mem_append_right _ hhanded)
  have hone : (endings (history l) r).length ≤ 1 := by
    have hplace := (ha.outcome hr).place
    rw [endings_append, List.length_append] at hplace
    omega
  have hsilent (s : Lap) (hs : s ∈ l) (hno : ∀ how, .ended r how ∈ s.after.out → ¬how.IsAcceptance) : s.Silent r := by
    obtain ⟨l₁, l₂, rfl⟩ := List.append_of_mem hs
    obtain ⟨hbefore, hstep, -⟩ := htrace.split
    refine lap_silent (hbefore.reachable hstart).told hstep ha (fun x hx => ?_) hr hno
    exact List.mem_append_right _ (mem_history.mpr ⟨s, hs, hx⟩)
  refine ⟨hone, fun how hended haccept => ?_, fun hno s hs => hsilent s hs fun how h =>
    hno how (mem_history.mpr ⟨s, hs, h⟩)⟩
  obtain ⟨s, hs, hlap⟩ := mem_history.mp hended
  obtain ⟨l₁, l₂, rfl⟩ := List.append_of_mem hs
  obtain ⟨hbefore, hstep, -⟩ := htrace.split
  obtain ⟨hkey, hinserts⟩ := hready s hs
  refine ⟨l₁, s, l₂, rfl, lap_echoes hstart hbefore hstep hclient hsend hkey hinserts hlap haccept, fun s' hs' => ?_⟩
  refine hsilent s' ?_ fun how' hended' => absurd hended' (not_ended_elsewhere hone hlap hs')
  exact (List.mem_append.mp hs').elim (List.mem_append_left _) fun h =>
    List.mem_append_right _ (List.mem_cons_of_mem _ h)

/-- Client 1 sends a message that the radio accepts, and client 2 gets its echo. -/
theorem send_echoed_once_contact : ∃ c₀ l c r,
    (Core.new ⟨.off, true, false, ⟨0, 0, 0, 0⟩, .off⟩ .empty).start sound
      ⟨true, [.frame (0x05 :: List.replicate 35 0), .frame [0x0D, 3, 0, 1]], sound, sound, sound⟩ [] = .ok c₀ ∧
    Trace c₀ l c ∧
    ∃ l₁ s l₂, l = l₁ ++ s :: l₂ ∧ (∃ d ∈ l₁, .radio r ∈ d.after.out ∧ s.Echoes r 1 (d.after.identityOf 1)) ∧
      ∀ s' ∈ l₁ ++ l₂, s'.Silent r := by
  let send : ClientCommand := ⟨1, 5000, [0x02, 0, 0, 0, 0, 0, 0, 1, 2, 3, 4, 5, 6, 0x68]⟩
  let r : Queued := ⟨some 1, ⟨send.payload, List.cons_ne_nil _ _⟩, 2⟩
  obtain ⟨c₀, c₁, c₂, c₃, c₄, hboot, h₁, h₂, h₃, h₄, hhanded, hended, hk₀, hk₁, hk₂, hk₃⟩ : ∃ c₀ c₁ c₂ c₃ c₄,
      (Core.new ⟨.off, true, false, ⟨0, 0, 0, 0⟩, .off⟩ .empty).start sound
        ⟨true, [.frame (0x05 :: List.replicate 35 0), .frame [0x0D, 3, 0, 1]], sound, sound, sound⟩ [] = .ok c₀ ∧
      c₀.step [] (.radio sound [0x01, 0x01]) = .ok c₁ ∧ c₁.step [] (.radio sound [0x01, 0x01]) = .ok c₂ ∧
      c₂.step [[.connect, .connect]] (.command sound send) = .ok c₃ ∧ c₃.step [] (.radio sound [0x06, 0]) = .ok c₄ ∧
      .handed r ∈ c₃.out ∧ .ended r (.replied 0x06) ∈ c₄.out ∧
      c₀.radioPubkey ≠ none ∧ c₁.radioPubkey ≠ none ∧ c₂.radioPubkey ≠ none ∧ c₃.radioPubkey ≠ none := by
    refine ⟨_, _, _, _, _, rfl, rfl, rfl, rfl, rfl, ?_, ?_, Option.some_ne_none _, Option.some_ne_none _,
      Option.some_ne_none _, Option.some_ne_none _⟩
    · exact List.mem_cons_self
    · decide
  have htrace : Trace c₀ _ c₄ := .cons h₁ (.cons h₂ (.cons h₃ (.cons h₄ (.nil c₄))))
  have hready : ∀ s ∈ ([⟨c₀, [], .radio sound [0x01, 0x01], c₁⟩, ⟨c₁, [], .radio sound [0x01, 0x01], c₂⟩,
      ⟨c₂, [[.connect, .connect]], .command sound send, c₃⟩, ⟨c₃, [], .radio sound [0x06, 0], c₄⟩] : List Lap),
      s.before.radioPubkey ≠ none ∧ s.event.Inserts := by
    simp [hk₀, hk₁, hk₂, hk₃, Event.Inserts, sound, soundAt]
  refine ⟨c₀, _, c₄, r, hboot, htrace, ?_⟩
  refine (send_echoed_once hboot htrace hready ?_ rfl (Or.inl ⟨rfl, by decide⟩)).2.1 (.replied 0x06) ?_
    (show (0x06 : UInt8) ≠ 0x01 by decide)
  · simp [hhanded]
  · simp [hended]

end
end Core
end CoreSplitter
