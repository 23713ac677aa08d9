import CoreSplitter.Lib.Reports
import CoreSplitter.Theorems.Contacts
import CoreSplitter.Theorems.Listing
import CoreSplitter.World.Infos
import CoreSplitter.World.Reads

/-! The cached contacts and those of the radio. While the radio's table changes, whatever is out of date in the
    cache is going to be read again; once the proxy and the radio are at rest, the cache serves every contact as the
    radio holds it. -/

namespace CoreSplitter
open Bytes

/-- The contact that a frame carries, as it is served from the cache. -/
def contactIn (frame : Bytes) : Option Bytes :=
  if frame.head? = some 0x03 ∧ contactFrameLen ≤ frame.length then some (frame.take contactFrameLen) else none

/-- What a frame says of one contact. -/
def reportOf (key : Bytes) (f : Frame) : Option Bytes := (contactIn f.body).filter fun v => Core.contactKey v = key

/-- The contacts of a radio. -/
structure ContactBook where
  /-- The CONTACT frame of each, by key. -/
  table : Table Bytes Bytes
  /-- Those that the running GET_CONTACTS has not reported yet. -/
  due : List Bytes
  /-- Those that changed without a command, and that no push was about since. -/
  unannounced : List Bytes
deriving DecidableEq

namespace ContactBook
variable {s s' : ContactBook} {q : Queued} {frame : Bytes} {last : Bool}

/-- A reply to `q`, the last or not. A CONTACT frame carries the contact as it is; GET_CONTACT_BY_KEY gets the
    contact if there is one, an unfiltered GET_CONTACTS all of them; a contact is changed by the acceptance of a
    command that does so, and is gone once REMOVE_CONTACT is answered. -/
structure Answers (s : ContactBook) (q : Queued) (frame : Bytes) (last : Bool) (s' : ContactBook) : Prop where
  shape : ∃ code ∈ frame.head?, (awaitingFor q.payload).classify code = (true, last)
  current : ∀ v ∈ contactIn frame, s.table.lookup (Core.contactKey v) = some v
  asked : ∀ key ∈ q.payload.askedContact, ∀ v ∈ s.table.lookup key, contactIn frame = some v ∧ Core.contactKey v = key
  listed : q.payload.bytes = [0x04] → (∀ key ∈ s.due, key ∈ s'.due ∨ ∃ v ∈ contactIn frame, Core.contactKey v = key) ∧
    (last = true → ∀ key ∈ s.due, s.table.lookup key = none)
  changed : s.table.Differs s'.table fun key =>
    frame.head? = some 0x00 ∧ (q.payload.Changes key ∨ q.payload.removedContact = some key)
  removed : ∀ key ∈ q.payload.removedContact, s'.table.lookup key = none
  unannounced : s'.unannounced = s.unannounced

instance : Decidable (s.Answers q frame last s') :=
  decidable_of_iff ((∃ code ∈ frame.head?, (awaitingFor q.payload).classify code = (true, last)) ∧
    (∀ v ∈ contactIn frame, s.table.lookup (Core.contactKey v) = some v) ∧
    (∀ key ∈ q.payload.askedContact, ∀ v ∈ s.table.lookup key, contactIn frame = some v ∧ Core.contactKey v = key) ∧
    (q.payload.bytes = [0x04] → (∀ key ∈ s.due, key ∈ s'.due ∨ ∃ v ∈ contactIn frame, Core.contactKey v = key) ∧
      (last = true → ∀ key ∈ s.due, s.table.lookup key = none)) ∧
    s.table.Differs s'.table (fun key => frame.head? = some 0x00 ∧
      (q.payload.Changes key ∨ q.payload.removedContact = some key)) ∧
    (∀ key ∈ q.payload.removedContact, s'.table.lookup key = none) ∧ s'.unannounced = s.unannounced)
    ⟨fun ⟨h₁, h₂, h₃, h₄, h₅, h₆, h₇⟩ => ⟨h₁, h₂, h₃, h₄, h₅, h₆, h₇⟩,
      fun ⟨h₁, h₂, h₃, h₄, h₅, h₆, h₇⟩ => ⟨h₁, h₂, h₃, h₄, h₅, h₆, h₇⟩⟩

end ContactBook

/-- A quiet radio that answers in shape, whose contacts change by accepted commands, or by themselves with an ADVERT
    or a PATH_UPDATE to follow. -/
def Radio.contacts : Radio ContactBook where
  take s q s' := s' = { s with due := if q.payload.bytes = [0x04] then s.table.keys else s.due }
  reply s q frame last s' := s.Answers q frame last s'
  push s frame s' := s'.table = s.table ∧ s'.due = s.due ∧
    (∃ code ∈ frame.head?, isPushEvent code = true ∧ code ≠ 0x8B) ∧
    ∀ key ∈ s.unannounced, key ∈ s'.unannounced ∨ Announces frame key
  drift s s' := s'.due = s.due ∧ s.unannounced ⊆ s'.unannounced ∧ s.table.Differs s'.table (· ∈ s'.unannounced)
  relink _ _ := True

namespace Radio

section
variable {s s' : ContactBook} {q : Queued} {frame : Bytes} {last : Bool}

instance : Decidable (contacts.take s q s') :=
  inferInstanceAs (Decidable (s' = { s with due := if q.payload.bytes = [0x04] then s.table.keys else s.due }))
instance : Decidable (contacts.reply s q frame last s') := inferInstanceAs (Decidable (s.Answers q frame last s'))
instance : Decidable (contacts.push s frame s') :=
  inferInstanceAs
    (Decidable (s'.table = s.table ∧ s'.due = s.due ∧ (∃ code ∈ frame.head?, isPushEvent code = true ∧ code ≠ 0x8B) ∧
    ∀ key ∈ s.unannounced, key ∈ s'.unannounced ∨ Announces frame key))
instance : Decidable (contacts.drift s s') :=
  inferInstanceAs (Decidable (s'.due = s.due ∧ s.unannounced ⊆ s'.unannounced ∧
      s.table.Differs s'.table (· ∈ s'.unannounced)))

end

theorem contacts_quiet : contacts.Quiet := by
  rintro s frame s' ⟨-, -, ⟨code, hcode, -, hne⟩, -⟩ h
  exact hne (Option.some.inj (hcode.symm.trans h))

theorem contacts_shaped : contacts.Shaped where
  reply _ _ _ _ _ h := h.shape
  push _ _ _ h := h.2.2.1.imp fun _ h => ⟨h.1, h.2.1⟩
  telemetry := Or.inl contacts_quiet

end Radio

namespace World

/-- Once the frames on their way are handled, the contact is served as `v`. -/
def Mirrors (w : World ContactBook) (key v : Bytes) : Prop :=
  Reports.settled (reportOf key) w.wire.back (Core.servedContact w.core.db.contacts key) = some v

/-- The contact is on its way to be read again, or to be removed. -/
inductive Excused (w : World ContactBook) (key : Bytes) : Prop
  | unannounced (h : key ∈ w.radio.unannounced)
  | announced {f : Frame} (hf : f ∈ w.wire.back) (h : Announces f.body key)
  | accepted {f : Frame} {q : Queued} (hf : f ∈ w.wire.back) (hq : f.request = some q)
      (hcode : f.body.head? = some 0x00) (h : q.payload.Changes key)
  | waiting {q : Queued} (hq : q ∈ w.core.pendingQueue) (h : Core.Asks q key)
  | sent {q : Queued} (hq : q ∈ w.wire.sent) (h : q.payload.Reads key)
  | serving {q : Queued} (hq : w.wire.serving = some q) (h : q.payload.Reads key)
      (hdue : q.payload.bytes = [0x04] → key ∈ w.radio.due)
  | removing {q : Queued} (hq : q ∈ w.wire.unserved) (h : q.payload.removedContact = some key)

/-- Every contact of the radio is mirrored, or on its way. -/
def Tracked (w : World ContactBook) : Prop :=
  w.core.radioSendTx = true → ∀ key v, w.radio.table.lookup key = some v → w.Mirrors key v ∨ w.Excused key

/-- No request times out, what is sent and every call to the database succeeds, and no contact is purged. -/
structure Tended (w : World ContactBook) (e : Core.Event) : Prop where
  timely : e.Timely w.core
  sends : e.Sends
  database : e.DbOk
  unpurged : ∀ env, e = .maintenanceTick env → w.core.contactsCut env = none

section
variable {w w₁ w₀ : World ContactBook} {c : Core} {f : Frame} {rest : List Frame} {o : Option Frame} {s : ContactBook}
  {frontend : List (List FrontendOp)} {env : Env} {e : Core.Event} {q : Queued} {rest' : List Queued}
  {key v frame : Bytes} {last : Bool}

/-! ### Contacts in frames -/

theorem reportOf_eq_some {f : Frame} (h : reportOf key f = some v) :
    contactIn f.body = some v ∧ Core.contactKey v = key := by
  obtain ⟨hin, hkey⟩ := Option.filter_eq_some_iff.mp h
  exact ⟨hin, of_decide_eq_true hkey⟩

theorem reportOf_of_contact {f : Frame} (h : contactIn f.body = some v) (hkey : Core.contactKey v = key) :
    reportOf key f = some v := by
  rw [reportOf, h]
  exact Option.filter_eq_some_iff.mpr ⟨rfl, decide_eq_true hkey⟩

theorem reportOf_push {f : Frame} {code : UInt8} (hcode : f.body.head? = some code) (hpush : isPushEvent code = true) :
    reportOf key f = none := by
  have hne : code ≠ 0x03 := by
    rintro rfl
    cases hpush
  rw [reportOf, contactIn, if_neg fun h => hne (Option.some.inj (hcode.symm.trans h.1))]
  rfl

/-! ### What a turn leaves in the cache -/

/-- A turn that neither sends a REMOVE_CONTACT of the contact nor sweeps it caches what the frame it handles says of
    it. -/
theorem served_step (hvalid : w.core.clients.Valid) (hs : w.core.step frontend e = .ok c) (hok : e.DbOk)
    (hunpurged : ∀ env, e = .maintenanceTick env → w.core.contactsCut env = none)
    (hkept : ∀ q, .radio q ∈ c.out → q.payload.removedContact ≠ some key) :
    Core.servedContact c.db.contacts key =
      (e.contact.filter fun v => Core.contactKey v = key).or (Core.servedContact w.core.db.contacts key) := by
  let s : Core.Lap := ⟨w.core, frontend, e, c⟩
  have hlookup : c.db.contacts.lookup key = s.contactsThen.lookup key := by
    refine Option.ext fun row => (Core.Lap.contact_iff (s := s) key row hvalid hs).trans (and_iff_left ⟨?_, ?_⟩)
    · rintro ⟨⟨q, hq, hremoved⟩, -⟩
      exact hkept q hq hremoved
    · rintro ⟨env, threshold, row, he, hcut, -⟩
      rw [hunpurged env he] at hcut
      cases hcut
  rw [Core.servedContact, hlookup]
  cases e with
  | radio env frame =>
    have hok : env.dbOk .upsertContact = true := hok _
    by_cases hcontact : frame.head? = some 0x03 ∧ contactFrameLen ≤ frame.length
    · have hthen : s.contactsThen = w.core.db.contacts.insert (Core.contactOf frame hcontact.2).publicKey
          ⟨Core.contactOf frame hcontact.2, some env.unix⟩ := by
        simp [s, Core.Lap.contactsThen, Core.Lap.contactsHeard, Core.contactPut, hcontact, hok, Change.apply]
      have hevent : (Core.Event.radio env frame).contact = some (frame.take contactFrameLen) := if_pos hcontact
      rw [hthen, hevent, Table.lookup_insert_eq, Core.contactOf_publicKey hcontact.2, Option.filter_some]
      by_cases hkey : Core.contactKey (frame.take contactFrameLen) = key
      · simp [hkey, Core.contactFrame_contactOf hcontact.1 hcontact.2]
      · simp [hkey, Ne.symm hkey, Core.servedContact]
    · have hthen : s.contactsThen = w.core.db.contacts := by
        simp [s, Core.Lap.contactsThen, Core.Lap.contactsHeard, Core.contactPut, hcontact]
      have hevent : (Core.Event.radio env frame).contact = none := if_neg hcontact
      rw [hthen, hevent]
      rfl
  | command | timeoutTick | maintenanceTick | disconnected | idle => rfl

/-! ### Turns -/

/-- A request of the proxy itself for the contact, that waited or was handed over in this turn, is waiting or sent. -/
theorem Excused.of_asks (ha : w.Accounted) (ha' : (w.turned c o).Accounted) (hunfailed : Core.Unfailed c.out)
    (hasks : Core.Asks q key) (hin : q ∈ w.core.pendingQueue ∨ .handed q ∈ c.out) : (w.turned c o).Excused key := by
  have ha' : Core.Accounted True (w.history ++ c.out) c := by simpa [Accounted] using ha'
  rcases Core.Accounted.internal_kept ha ha' hunfailed hasks.1 hin with hwaits | hsent
  · exact .waiting hwaits hasks
  · exact .sent (List.mem_append_right _ (mem_sentToRadio.mpr hsent)) hasks.2

theorem Excused.turned (h : w.Excused key) (ha : w.Accounted) (ha' : (w.turned c o).Accounted)
    (hunfailed : Core.Unfailed c.out) : (w.turned c o).Excused key := by
  cases h with
  | unannounced h => exact .unannounced h
  | announced hf h => exact .announced hf h
  | accepted hf hq hcode h => exact .accepted hf hq hcode h
  | waiting hq h => exact .of_asks ha ha' hunfailed h (Or.inl hq)
  | sent hq h => exact .sent (List.mem_append_left _ hq) h
  | serving hq h hdue => exact .serving hq h hdue
  | removing hq h => exact .removing (by simpa [Wire.unserved, Wire.send, ← List.append_assoc] using Or.inl hq) h

/-- A command that may change a contact is accepted with its only reply. -/
theorem changes_accepted {p : Command} (h : p.Changes key) (hclass : (awaitingFor p).classify 0x00 = (true, last)) :
    last = true := by
  have hawaiting : awaitingFor p = .oneOf [0x00] := by
    rcases h with ⟨hcode | hcode, -⟩ | hcode <;> simp [awaitingFor, hcode]
  rw [hawaiting] at hclass
  exact (Prod.mk.inj hclass).2.symm

/-- What told that a contact changed is still on its way, or the proxy now asks for the contact. -/
theorem Excused.received (h : w.Excused key) (hl : Lockstep Radio.contacts w) (ha : w.Accounted)
    (hback : w.wire.back = f :: rest) (hs : w.core.step frontend (.radio env f.body) = .ok c) :
    (w.received rest).Excused key ∨ ∃ q, .handed q ∈ c.out ∧ Core.Asks q key := by
  have hemits : Radio.contacts.Emits f := hl.emitted f (by simp [hback])
  cases h with
  | unannounced h => exact Or.inl (.unannounced h)
  | @announced f' hf' h =>
    rw [hback] at hf'
    rcases List.mem_cons.mp hf' with rfl | hf'
    · refine Or.inr (Core.handleRadioRx_announced hs (fun g hslot code hcode => ?_) h)
      have hslot : w.core.inFlight = some g := hslot
      have hawaiting : g.awaiting = awaitingFor g.payload := Core.Accounted.awaiting ha g hslot
      have hpush : isPushEvent code = true ∧ code ≠ 0x8B := by
        rcases h.1 with h | h <;> cases hcode.symm.trans h <;> decide
      by_contra hmatched
      rw [Bool.not_eq_false, hawaiting] at hmatched
      exact hpush.2 (classify_push hpush.1 hmatched).2
    · exact Or.inl (.announced hf' h)
  | @accepted f' q hf' hq hcode h =>
    rw [hback] at hf'
    rcases List.mem_cons.mp hf' with rfl | hf'
    · obtain ⟨g, hslot, rfl⟩ :=
        mem_held (by rw [hl.replied hback hq (Or.inl Radio.contacts_quiet)]; exact List.mem_singleton.mpr rfl)
      rw [Radio.Emits, hq] at hemits
      obtain ⟨s, s', hreply⟩ := hemits
      obtain ⟨code, hcode', hclass⟩ := hreply.shape
      cases hcode.symm.trans hcode'
      have hlast := changes_accepted h hclass
      have hawaiting : g.awaiting = awaitingFor g.request.payload := Core.Accounted.awaiting ha g hslot
      rw [hlast, ← hawaiting] at hclass
      exact Or.inr (Core.handleRadioRx_changed hs hslot hcode hclass (by decide) h)
    · exact Or.inl (.accepted hf' hq hcode h)
  | waiting hq h => exact Or.inl (.waiting hq h)
  | sent hq h => exact Or.inl (.sent hq h)
  | serving hq h hdue => exact Or.inl (.serving hq h hdue)
  | removing hq h => exact Or.inl (.removing hq h)

/-- A turn of the core that no frame of the radio causes. -/
theorem Tracked.turned (ht : Tracked w) (ha : w.Accounted) (ha' : (w.turned c none).Accounted)
    (hlocal : e.isLocal = true) (htended : w.Tended e) (hs : w.core.step frontend e = .ok c) :
    Tracked (w.turned c none) := by
  have hvalid : w.core.clients.Valid := Core.Accounted.valid ha
  have htimely : e.Timely (w.core.begin frontend) := by
    have h := htended.timely
    cases e <;> exact h
  intro hup key v hkey
  obtain ⟨-, hlink, -⟩ := Core.handle_emitted (b := false) hs ⟨hvalid.born, hvalid.nodup⟩ hlocal htimely nofun
  have hup : w.core.radioSendTx = true := hlink.symm.trans hup
  by_cases hremoves : ∃ q, .radio q ∈ c.out ∧ q.payload.removedContact = some key
  · obtain ⟨q, hq, hremoves⟩ := hremoves
    exact Or.inr (.removing (List.mem_append_right _ (List.mem_append_right _ (mem_sentToRadio.mpr hq))) hremoves)
  · rcases ht hup key v hkey with hmirrors | hexcused
    · have hcontact : e.contact = none := by cases e <;> first | rfl | cases hlocal
      have hserved := served_step hvalid hs htended.database htended.unpurged fun q hq hkey => hremoves ⟨q, hq, hkey⟩
      rw [hcontact, Option.filter_none, Option.none_or] at hserved
      have hmirrors : (w.turned c none).Mirrors key v := by
        unfold Mirrors
        rw [turned_core, hserved]
        exact hmirrors
      exact Or.inl hmirrors
    · obtain ⟨hemitted, -, -⟩ := Core.handle_emitted (b := true) hs ⟨hvalid.born, hvalid.nodup⟩ hlocal htimely
        fun _ => ⟨hup, htended.sends.writerOpen hlocal⟩
      obtain ⟨es, hout, hes⟩ := hemitted
      have hunfailed : Core.Unfailed c.out := by
        have hout : c.out = es := by simpa [Core.begin] using hout
        exact hout ▸ Core.unfailed_of_moves hes
      exact Or.inr (hexcused.turned ha ha' hunfailed)

/-- The next frame of the radio is handled. -/
theorem Tracked.delivered (ht : Tracked w) (hl : Lockstep Radio.contacts w) (ha : w.Accounted)
    (ha' : ((w.received rest).turned c (some f)).Accounted) (hback : w.wire.back = f :: rest)
    (htended : w.Tended (.radio env f.body)) (hs : w.core.step frontend (.radio env f.body) = .ok c) :
    Tracked ((w.received rest).turned c (some f)) := by
  have hvalid : w.core.clients.Valid := Core.Accounted.valid ha
  have hlink : c.radioSendTx = w.core.radioSendTx := handleRadioRx_link (c := w.core.begin frontend) hs
  intro hup key v hkey
  have hup : w.core.radioSendTx = true := hlink.symm.trans hup
  by_cases hremoves : ∃ q, .radio q ∈ c.out ∧ q.payload.removedContact = some key
  · obtain ⟨q, hq, hremoves⟩ := hremoves
    exact Or.inr (.removing (List.mem_append_right _ (List.mem_append_right _ (mem_sentToRadio.mpr hq))) hremoves)
  · rcases ht hup key v hkey with hmirrors | hexcused
    · have hserved := served_step hvalid hs htended.database htended.unpurged fun q hq hkey => hremoves ⟨q, hq, hkey⟩
      have hreport : ((Core.Event.radio env f.body).contact.filter fun v => Core.contactKey v = key) =
          reportOf key f := rfl
      rw [hreport] at hserved
      have hmirrors : ((w.received rest).turned c (some f)).Mirrors key v := by
        unfold Mirrors at hmirrors ⊢
        rw [hback, Reports.settled_cons, ← hserved] at hmirrors
        exact hmirrors
      exact Or.inl hmirrors
    · have ha₀ : (w.received rest).Accounted := ha
      have hsend : (w.core.begin frontend).canSend env = true := by
        have hopen : env.writerOpen = true := htended.sends
        have hup : (w.core.begin frontend).radioSendTx = true := hup
        simp [Core.canSend, hup, hopen]
      obtain ⟨es, hout, hes⟩ := Core.handleRadioRx_unfailed hs hsend
      have hout : c.out = es := by simpa [Core.begin] using hout
      have hunfailed : Core.Unfailed c.out := hout ▸ hes
      rcases hexcused.received hl ha hback hs with hexcused | ⟨q, hq, hasks⟩
      · exact Or.inr (hexcused.turned ha₀ ha' hunfailed)
      · exact Or.inr (.of_asks ha₀ ha' hunfailed hasks (Or.inr hq))

/-! ### The radio -/

/-- The radio takes a request. -/
theorem Tracked.taken (ht : Tracked w) (hsent : w.wire.sent = q :: rest') (hfree : w.wire.serving = none)
    (htake : Radio.contacts.take w.radio q s) : Tracked { w with wire := w.wire.take q rest', radio := s } := by
  obtain rfl : s = { w.radio with due := if q.payload.bytes = [0x04] then w.radio.table.keys else w.radio.due } := htake
  intro hup key v hkey
  refine (ht hup key v hkey).imp id fun hexcused => ?_
  cases hexcused with
  | unannounced h => exact .unannounced h
  | announced hf h => exact .announced hf h
  | accepted hf hq hcode h => exact .accepted hf hq hcode h
  | waiting hq h => exact .waiting hq h
  | @sent q' hq h =>
    rw [hsent] at hq
    rcases List.mem_cons.mp hq with rfl | hq
    · refine .serving rfl h fun hlists => ?_
      have hdue : key ∈ w.radio.table.keys := AList.mem_keys.mp (AList.lookup_isSome.mp (by rw [hkey]; rfl))
      simpa [hlists] using hdue
    · exact .sent hq h
  | serving hq => cases hfree.symm.trans hq
  | removing hq h => exact .removing (by simpa [Wire.unserved, Wire.take, hsent, hfree] using hq) h

/-- A contact that the radio holds as before its reply is read by it, or mirrored or excused as before. -/
theorem Tracked.unchanged (ht : Tracked w) (hserving : w.wire.serving = some q)
    (hreply : w.radio.Answers q frame last s) (hup : w.core.radioSendTx = true)
    (hkey : w.radio.table.lookup key = some v) (hkept : q.payload.removedContact ≠ some key) :
    Mirrors { w with wire := w.wire.reply q frame last, radio := s } key v ∨
      Excused { w with wire := w.wire.reply q frame last, radio := s } key := by
  have hread (h : ∃ u, contactIn frame = some u ∧ Core.contactKey u = key) :
      Mirrors { w with wire := w.wire.reply q frame last, radio := s } key v := by
    obtain ⟨u, hu, hukey⟩ := h
    obtain rfl : u = v := Option.some.inj ((hukey ▸ hreply.current u hu).symm.trans hkey)
    unfold Mirrors
    rw [show (w.wire.reply q frame last).back = w.wire.back ++ [⟨frame, some q, last⟩] from rfl, Reports.settled_concat,
      reportOf_of_contact (f := ⟨frame, some q, last⟩) hu hukey, Option.some_or]
  by_cases hreport : ∃ u, contactIn frame = some u ∧ Core.contactKey u = key
  · exact Or.inl (hread hreport)
  rcases ht hup key v hkey with hmirrors | hexcused
  · have hnone : reportOf key ⟨frame, some q, last⟩ = none :=
      Option.eq_none_iff_forall_ne_some.mpr fun u hu => hreport ⟨u, reportOf_eq_some hu⟩
    refine Or.inl ?_
    unfold Mirrors
    rw [show (w.wire.reply q frame last).back = w.wire.back ++ [⟨frame, some q, last⟩] from rfl,
      Reports.settled_concat, hnone, Option.none_or]
    exact hmirrors
  · refine Or.inr ?_
    cases hexcused with
    | unannounced h => exact .unannounced (hreply.unannounced ▸ h)
    | announced hf h => exact .announced (List.mem_append_left _ hf) h
    | accepted hf hq hcode h => exact .accepted (List.mem_append_left _ hf) hq hcode h
    | waiting hq h => exact .waiting hq h
    | sent hq h => exact .sent hq h
    | serving hq h hdue =>
      cases hserving.symm.trans hq
      rcases h with hlists | hasked
      · obtain ⟨hdue', hlast⟩ := hreply.listed hlists
        cases last with
        | true =>
          rw [hlast rfl key (hdue hlists)] at hkey
          cases hkey
        | false => exact .serving rfl (Or.inl hlists) fun _ => (hdue' key (hdue hlists)).resolve_right hreport
      · exact absurd ⟨v, hreply.asked key hasked v hkey⟩ hreport
    | @removing q' hq h =>
      have hq : q' = q ∨ q' ∈ w.wire.sent := by simpa [Wire.unserved, hserving] using hq
      rcases hq with rfl | hq
      · exact absurd h hkept
      · exact .removing (List.mem_append_right _ hq) h

/-- The radio emits a frame that replies to a request. -/
theorem Tracked.replied (ht : Tracked w) (hserving : w.wire.serving = some q)
    (hreply : Radio.contacts.reply w.radio q frame last s) :
    Tracked { w with wire := w.wire.reply q frame last, radio := s } := by
  have hreply : w.radio.Answers q frame last s := hreply
  intro hup key v hkey
  have hkey : s.table.lookup key = some v := hkey
  have hkept : q.payload.removedContact ≠ some key := fun h => by
    rw [hreply.removed key h] at hkey
    cases hkey
  rcases hreply.changed key with hsame | ⟨hcode, hchanges⟩
  · exact ht.unchanged hserving hreply hup (hsame.symm.trans hkey) hkept
  · exact Or.inr (.accepted (List.mem_append_right _ (List.mem_singleton.mpr rfl)) rfl hcode
      (hchanges.resolve_right hkept))

/-- The radio emits a frame unasked. -/
theorem Tracked.pushed (ht : Tracked w) (hpush : Radio.contacts.push w.radio frame s) :
    Tracked { w with wire := w.wire.push frame, radio := s } := by
  obtain ⟨htable, hdue, ⟨code, hcode, hispush, -⟩, hannounced⟩ := hpush
  intro hup key v hkey
  refine (ht hup key v (htable ▸ hkey)).imp (fun hmirrors => ?_) fun hexcused => ?_
  · unfold Mirrors
    rw [show (w.wire.push frame).back = w.wire.back ++ [⟨frame, none, false⟩] from rfl, Reports.settled_concat,
      reportOf_push hcode hispush, Option.none_or]
    exact hmirrors
  · cases hexcused with
    | unannounced h =>
      rcases hannounced key h with h | h
      · exact .unannounced h
      · exact .announced (List.mem_append_right _ (List.mem_singleton.mpr rfl)) h
    | announced hf h => exact .announced (List.mem_append_left _ hf) h
    | accepted hf hq hcode h => exact .accepted (List.mem_append_left _ hf) hq hcode h
    | waiting hq h => exact .waiting hq h
    | sent hq h => exact .sent hq h
    | serving hq h hdue' => exact .serving hq h fun hlists => hdue.symm ▸ hdue' hlists
    | removing hq h => exact .removing hq h

/-- Contacts change at the radio. -/
theorem Tracked.drifted (ht : Tracked w) (hdrift : Radio.contacts.drift w.radio s) : Tracked { w with radio := s } := by
  obtain ⟨hdue, hsub, hdiffers⟩ := hdrift
  intro hup key v hkey
  rcases hdiffers key with hsame | hun
  · refine (ht hup key v (hsame.symm.trans hkey)).imp id fun hexcused => ?_
    cases hexcused with
    | unannounced h => exact .unannounced (hsub h)
    | announced hf h => exact .announced hf h
    | accepted hf hq hcode h => exact .accepted hf hq hcode h
    | waiting hq h => exact .waiting hq h
    | sent hq h => exact .sent hq h
    | serving hq h hdue' => exact .serving hq h fun hlists => hdue.symm ▸ hdue' hlists
    | removing hq h => exact .removing hq h
  · exact Or.inr (.unannounced hun)

/-- On a new link every contact is going to be listed. -/
theorem Tracked.fresh (hwire : w.wire = .fresh (sentToRadio w.core.out))
    (hlists : w.core.radioSendTx = true → ∃ q, .radio q ∈ w.core.out ∧ q.payload = Core.getContacts) : Tracked w := by
  intro hup key v _
  obtain ⟨q, hq, hpayload⟩ := hlists hup
  refine Or.inr (.sent (q := q) ?_ (Or.inl (by rw [hpayload]; rfl)))
  rw [hwire]
  exact mem_sentToRadio.mpr hq

/-! ### Runs -/

theorem Tracked.step (ht : Tracked w) (hl : Lockstep Radio.contacts w) (ha : w.Accounted) (ha' : w₁.Accounted)
    (hs : Step Radio.contacts (fun w _ e => w.Tended e) w w₁) : Tracked w₁ := by
  cases hs with
  | turn hlocal hallow hs => exact ht.turned ha ha' hlocal hallow hs
  | deliver hback hallow hs => exact ht.delivered hl ha ha' hback hallow hs
  | relink hallow hs _ => exact .fresh rfl (Core.reconnectRadio_lists hs hallow.sends)
  | take hsent hfree hradio => exact ht.taken hsent hfree hradio
  | reply hserving hradio => exact ht.replied hserving hradio
  | push hradio => exact ht.pushed hradio
  | drift hradio => exact ht.drifted hradio

theorem Started.tracked (hstart : Started (fun a => a.syncEnv.writerOpen = true) w) : Tracked w := by
  obtain ⟨config, db, env, first, attempts, hfirst, hattempts, hcore, hwire, -⟩ := hstart
  exact .fresh hwire (Core.start_lists hcore hfirst hattempts)

/-- In every run each contact of the radio is cached as it is, or on its way to be. -/
theorem Run.tracked (hr : Run Radio.contacts (fun w _ e => w.Tended e) w₀ w)
    (hstart : Started (fun a => a.syncEnv.writerOpen = true) w₀) : Tracked w := by
  have hopen (w : World ContactBook) (_ : List (List FrontendOp)) (e : Core.Event) (h : w.Tended e) : e.SyncOpen :=
    h.sends.syncOpen
  refine hr.invariant hstart.tracked fun w₁ w₂ hr ht hs => ?_
  have hl := hr.lockstep Radio.contacts_shaped hstart hopen fun _ _ _ h => h.timely
  exact ht.step hl (hr.accounted hstart hopen).1 ((hr.step hs).accounted hstart hopen).1 hs

/-- Nothing is asked, or to be asked, or on its way, and every change was announced. -/
structure AtRest (w : World ContactBook) : Prop where
  link : w.core.radioSendTx = true
  slot : w.core.inFlight = none
  queue : w.core.pendingQueue = []
  back : w.wire.back = []
  announced : w.radio.unannounced = []

/-- At rest the cache serves each contact of the radio as the radio holds it. -/
theorem AtRest.served (hrest : w.AtRest) (hstart : Started (fun a => a.syncEnv.writerOpen = true) w₀)
    (hr : Run Radio.contacts (fun w _ e => w.Tended e) w₀ w) (hkey : w.radio.table.lookup key = some v) :
    Core.servedContact w.core.db.contacts key = some v := by
  have hl : Lockstep Radio.contacts w := hr.lockstep Radio.contacts_shaped hstart
    (fun _ _ _ h => h.sends.syncOpen) fun _ _ _ h => h.timely
  have hunserved : w.wire.unserved = [] := by
    have howes := hl.owes_of_quiet Radio.contacts_quiet
    rw [show w.core.held = [] by simp [Core.held, hrest.slot]] at howes
    obtain ⟨done, hdone⟩ := howes.unserved_suffix
    exact (List.append_eq_nil_iff.mp hdone.symm).2
  obtain ⟨hserving, hsent⟩ : w.wire.serving = none ∧ w.wire.sent = [] := by
    simpa [Wire.unserved] using List.append_eq_nil_iff.mp hunserved
  rcases hr.tracked hstart hrest.link key v hkey with hmirrors | hexcused
  · unfold Mirrors at hmirrors
    rwa [hrest.back, Reports.settled_nil] at hmirrors
  · exfalso
    cases hexcused with
    | unannounced h => simp [hrest.announced] at h
    | announced hf => simp [hrest.back] at hf
    | accepted hf => simp [hrest.back] at hf
    | waiting hq => simp [hrest.queue] at hq
    | sent hq => simp [hsent] at hq
    | serving hq => cases hserving.symm.trans hq
    | removing hq => simp [hunserved] at hq

/-- At rest, a client that lists the contacts gets each contact of the radio as the radio holds it. -/
theorem listed_at_rest {cmd : ClientCommand} {cid : ClientId}
    (hstart : Started (fun a => a.syncEnv.writerOpen = true) w₀)
    (hr : Run Radio.contacts (fun w _ e => w.Tended e) w₀ w) (hrest : w.AtRest)
    (hs : w.core.step frontend (.command env cmd) = .ok c)
    (hlists : Core.Lap.Lists ⟨w.core, frontend, .command env cmd, c⟩ cid none)
    (hstays : (w.core.begin frontend).clients.Stays cid) :
    ∃ frames, framesTo cid c.out = Core.listing frames.length frames ∧ ∀ key v, w.radio.table.lookup key = some v →
    v ∈ frames := by
  have hreach : Core.Reachable w.history w.core := (hr.reachable hstart).reachable
  obtain ⟨-, -, hwhole⟩ := hlists.frames hreach.told hs
  have hall : Core.framesSince none (Core.cachedFrames w.core.db) = Core.cachedFrames w.core.db := by
    simp [Core.framesSince]
  refine ⟨Core.cachedFrames w.core.db, by simpa only [hall] using hwhole hstays, fun key v hkey => ?_⟩
  obtain ⟨row, hrow, hbytes⟩ := Option.map_eq_some_iff.mp (hrest.served hstart hr hkey)
  exact Core.mem_cachedFrames.mpr ⟨key, row, hrow, hbytes⟩

/-! ### A contact that changes -/

/-- Another frame of the contact of `Core.sevens`. -/
def eights : Bytes := 0x03 :: (List.replicate 32 7 ++ List.replicate 115 8)

/-- A radio with this one contact. -/
def holding (contact : Bytes) (due unannounced : List Bytes) : ContactBook :=
  ⟨(∅ : Table Bytes Bytes).insert (Core.contactKey contact) contact, due, unannounced⟩

/-- The sync of one contact, which changes then and is announced. -/
def announcedAfterSync : List (Act ContactBook) :=
  let key : Bytes := List.replicate 32 7
  [.turn [[.connect]] .idle,
    .take (holding Core.sevens [key] []), .reply [0x02, 1, 0, 0, 0] false (holding Core.sevens [key] []),
    .reply Core.sevens false (holding Core.sevens [] []), .reply [0x04, 7, 7, 7, 7] true (holding Core.sevens [] []),
    .deliver [] Core.sound, .deliver [] Core.sound, .deliver [] Core.sound,
    .take (holding Core.sevens [] []), .reply [0x01, 2] true (holding Core.sevens [] []), .deliver [] Core.sound,
    .drift (holding eights [] [key]), .push (0x81 :: key) (holding eights [] []), .deliver [] Core.sound,
    .take (holding eights [] []), .reply eights true (holding eights [] []), .deliver [] Core.sound]

theorem tended_of_undisturbed (h : w.Undisturbed frontend e) (he : e.DbOk ∧ ∀ env, e ≠ .maintenanceTick env) :
    w.Tended e := by
  refine ⟨h.2, ?_, he.1, fun env heq => absurd heq (he.2 env)⟩
  cases e with
  | disconnected => exact h.1.elim
  | command | radio | timeoutTick | maintenanceTick => exact h.1
  | idle => trivial

theorem listed_at_rest_announced_run : ∃ w₀ ∈ boot (holding Core.sevens [] []),
    w₀.Fits .contacts Undisturbed announcedAfterSync ∧
    ∃ w ∈ w₀.acts announcedAfterSync, (w.core.radioSendTx = true ∧ w.core.inFlight = none ∧ w.core.pendingQueue = [] ∧
      w.wire.back = [] ∧ w.radio = holding eights [] [] ∧ 1 ∈ w.core.clients.channels) ∧
      Except.Holds (w.core.step [] (.command Core.sound ⟨1, 5000, [0x04]⟩)) fun c =>
        .client 1 none 0 eights .cached ∈ c.out := by
  decide +kernel

/-- What client 1 lists then is the contact as it was announced. -/
theorem listed_at_rest_announced : ∃ (w : World ContactBook) (c : Core) (frames : List Bytes),
    w.core.step [] (.command Core.sound ⟨1, 5000, [0x04]⟩) = .ok c ∧
    framesTo 1 c.out = Core.listing frames.length frames ∧ eights ∈ frames := by
  obtain ⟨w₀, hboot, hfit, w, hw, ⟨hlink, hslot, hqueue, hback, hradio, hmem⟩, hlisted⟩ := listed_at_rest_announced_run
  obtain ⟨c, hs, hsent⟩ := hlisted
  have hsound : ∀ a ∈ announcedAfterSync, a.Handles fun e => e.DbOk ∧ ∀ env, e ≠ .maintenanceTick env := by
    simp [announcedAfterSync, Act.Handles, Core.Event.DbOk, Core.sound, Core.soundAt]
  have hr : Run Radio.contacts (fun w _ e => w.Tended e) w₀ w :=
    .of_acts hw (hfit.mono hsound fun _ _ _ => tended_of_undisturbed)
  have hrest : w.AtRest := ⟨hlink, hslot, hqueue, hback, by rw [hradio]; rfl⟩
  have hstays : (w.core.begin []).clients.Stays 1 := ⟨hmem, List.forall_mem_nil _⟩
  obtain ⟨frames, hframes, hall⟩ := listed_at_rest (started_of_boot hboot fun _ h => h) hr hrest hs
    ⟨_, _, rfl, rfl, rfl, rfl, _, _, _, hsent⟩ hstays
  exact ⟨w, c, frames, hs, hframes, hall (Core.contactKey eights) eights (by rw [hradio]; exact AList.lookup_insert _)⟩

end
end World
end CoreSplitter
