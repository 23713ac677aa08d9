import CoreSplitter.Theorems.Contacts

/-! The proxy over all its starts on one database, and what the cached contacts are then: each row is that of the last
    CONTACT frame, unless the contact was taken out or swept since. -/

namespace CoreSplitter
open Bytes

namespace Core

/-- The proxy is started, or makes a turn. -/
inductive Deed
  | boot (env : Env) (first : Attempt) (attempts : List Attempt) (after : Core)
  | turn (s : Lap)

/-- What the proxy does from its first start on, on an empty database; later starts find the one left to them. -/
inductive Service : List Deed → Core → Prop
  | install {config : Config} {env : Env} {first : Attempt} {attempts : List Attempt} {c : Core} :
      (Core.new config .empty).start env first attempts = .ok c → Service [.boot env first attempts c] c
  | restart {l : List Deed} {c c₁ : Core} {config : Config} {env : Env} {first : Attempt} {attempts : List Attempt} :
      Service l c → (Core.new config c.db).start env first attempts = .ok c₁ →
      Service (l ++ [.boot env first attempts c₁]) c₁
  | turn {l : List Deed} {c c₁ : Core} {frontend : List (List FrontendOp)} {e : Event} :
      Service l c → c.step frontend e = .ok c₁ → Service (l ++ [.turn ⟨c, frontend, e, c₁⟩]) c₁

section
variable {l l₁ l₂ : List Deed} {s : Lap} {c c₁ : Core}

theorem Service.reachable (h : Service l c) : ∃ out, Reachable out c := by
  induction h with
  | install hstart => exact ⟨_, Trace.reachable hstart (.nil _)⟩
  | restart _ hstart => exact ⟨_, Trace.reachable hstart (.nil _)⟩
  | turn _ hs ih =>
    obtain ⟨out, config, db, env, first, attempts, c₀, h', -, -, hstart, hrun, rfl⟩ := ih
    exact ⟨_, config, db, env, first, attempts, c₀, _, trivial, fun _ _ => trivial, hstart, hrun.step trivial hs, rfl⟩

theorem Service.accounted (h : Service l c) : ∃ out, Accounted False out c := by
  obtain ⟨out, hr⟩ := h.reachable
  exact ⟨out, (hr.accounted False.elim fun _ _ _ => False.elim).1⟩

theorem Service.valid (h : Service l c) : c.clients.Valid := by
  obtain ⟨out, ha⟩ := h.accounted
  exact ha.valid

theorem Service.trace {t : List Lap} (h : Service l c) (ht : Trace c t c₁) : Service (l ++ t.map .turn) c₁ := by
  induction ht generalizing l with
  | nil => simpa using h
  | cons hs _ ih =>
    rw [List.map_cons, ← List.singleton_append, ← List.append_assoc]
    exact ih (h.turn hs)

theorem Service.of_turn (h : Service (l ++ [.turn s]) c) :
    Service l s.before ∧ s.before.step s.frontend s.event = .ok s.after ∧ c = s.after := by
  generalize hl : l ++ [.turn s] = l' at h
  cases h with
  | install => cases (List.append_inj' (show l ++ [_] = [] ++ [_] from hl) rfl).2
  | restart => cases (List.append_inj' hl rfl).2
  | turn hservice hs =>
    obtain ⟨rfl, heq⟩ := List.append_inj' hl rfl
    cases heq
    exact ⟨hservice, hs, rfl⟩

theorem Service.of_boot {env : Env} {first : Attempt} {attempts : List Attempt}
    (h : Service (l ++ [.boot env first attempts c₁]) c) (hl : l ≠ []) :
    ∃ c' config, Service l c' ∧ (Core.new config c'.db).start env first attempts = .ok c := by
  generalize hl' : l ++ [.boot env first attempts c₁] = l' at h
  cases h with
  | install => exact absurd (List.append_inj' (show l ++ [_] = [] ++ [_] from hl') rfl).1 hl
  | restart hservice hstart =>
    obtain ⟨rfl, heq⟩ := List.append_inj' hl' rfl
    cases heq
    exact ⟨_, _, hservice, hstart⟩
  | turn => cases (List.append_inj' hl' rfl).2

theorem Service.before (h : Service (l₁ ++ l₂) c) (hl : l₁ ≠ []) : ∃ c', Service l₁ c' := by
  induction l₂ using List.reverseRecOn generalizing c with
  | nil => exact ⟨c, by simpa using h⟩
  | append_singleton l₂ d ih =>
    rw [← List.append_assoc] at h
    cases d with
    | turn s => exact ih h.of_turn.1
    | boot =>
      obtain ⟨c', _, hservice, -⟩ := h.of_boot (by simp [hl])
      exact ih hservice

/-- Each turn starts from where what was done before it led. -/
theorem Service.split (h : Service (l₁ ++ .turn s :: l₂) c) :
    Service l₁ s.before ∧ s.before.step s.frontend s.event = .ok s.after := by
  induction l₂ using List.reverseRecOn generalizing c with
  | nil =>
    obtain ⟨hservice, hs, -⟩ := h.of_turn
    exact ⟨hservice, hs⟩
  | append_singleton l₂ d ih =>
    rw [← List.cons_append, ← List.append_assoc] at h
    obtain ⟨c', hbefore⟩ := h.before (by simp)
    exact ih hbefore

end

/-! ### Cached contacts -/

/-- The key of a CONTACT frame. -/
def contactKey (frame : Bytes) : Bytes := (frame.drop 1).take 32

/-- The lastmod of a CONTACT frame. -/
def contactLastmod (frame : Bytes) : Nat := leNat ((frame.drop 144).take 4)

/-- The CONTACT frame that a turn handles. -/
def Event.contact : Event → Option Bytes
  | .radio _ frame => if frame.head? = some 0x03 ∧ contactFrameLen ≤ frame.length
      then some (frame.take contactFrameLen) else none
  | _ => none

namespace Lap

/-- The turn sends a REMOVE_CONTACT of the contact. -/
def Dismisses (s : Lap) (key : Bytes) : Prop := ∃ q, .radio q ∈ s.after.out ∧ q.payload.removedContact = some key

/-- The turn deletes a cached contact. -/
def Deletes (s : Lap) (key : Bytes) : Prop :=
  s.before.db.contacts.lookup key ≠ none ∧ s.after.db.contacts.lookup key = none

/-- The turn caches the frame it handles as the row of the contact. -/
def Records (s : Lap) (key : Bytes) (row : ContactRow) : Prop := .put key row ∈ s.contactsHeard

end Lap

namespace Deed

/-- The deed is a turn, and such a one. -/
def Turns (p : Lap → Prop) : Deed → Prop
  | .boot _ _ _ _ => False
  | .turn s => p s

/-- What the deed emitted. -/
def out : Deed → List Effect
  | .boot _ _ _ after => after.out
  | .turn s => s.after.out

end Deed

section
variable {l : List Deed} {s : Lap} {c : Core} {env : Env} {key frame : Bytes} {row : ContactRow}
  {ch : Change Bytes ContactRow}

/-- The row of a CONTACT frame is served as that frame. -/
theorem contactFrame_contactOf (hcode : frame.head? = some 0x03) (hlen : contactFrameLen ≤ frame.length) :
    (contactFrame (contactOf frame hlen)).bytes = frame.take contactFrameLen := by
  obtain ⟨code, rest, rfl⟩ := List.exists_cons_of_length_pos (Nat.lt_of_lt_of_le (by decide) hlen)
  obtain rfl : code = 0x03 := Option.some.inj hcode
  have hraw : (slice (0x03 :: rest) 0 contactFrameLen ⟨Nat.zero_le _, hlen⟩).length = contactFrameLen := slice_length _
  simp only [contactFrame, contactOf, hraw, ge_iff_le, Nat.le_refl, dite_true]
  simp [slice, contactFrameLen, List.take_take]

theorem contactOf_publicKey (hlen : contactFrameLen ≤ frame.length) :
    (contactOf frame hlen).publicKey = contactKey (frame.take contactFrameLen) := by
  simp only [contactOf, contactKey, slice, contactFrameLen, List.drop_take, List.take_take]
  rfl

theorem Lap.hears_iff_records : s.Hears key ↔ ∃ row, s.Records key row := by
  constructor
  · rintro ⟨ch, hch, hputs⟩
    obtain ⟨row, rfl⟩ := hputs.row
    exact ⟨row, hch⟩
  · rintro ⟨row, hrow⟩
    exact ⟨_, hrow, rfl⟩

/-- What the row of a contact holds once a turn has cached the frame it handles. -/
theorem Lap.Records.holds (h : s.Records key row) :
    ∃ env payload frame, s.event = .radio env payload ∧ s.event.contact = some frame ∧
    contactKey frame = key ∧ (contactFrame row.contact).bytes = frame ∧ row.seenAt = some env.unix := by
  obtain ⟨before, frontend, e, after⟩ := s
  cases e with
  | radio env payload =>
    have h : Change.put key row ∈ contactPut env payload := h
    unfold contactPut at h
    split at h
    · rename_i hcontact
      split at h
      · cases List.mem_singleton.mp h
        exact ⟨env, payload, _, rfl, if_pos hcontact, (contactOf_publicKey hcontact.2).symm,
          contactFrame_contactOf hcontact.1 hcontact.2, rfl⟩
      · cases h
    · cases h
  | command | timeoutTick | maintenanceTick | disconnected | idle => cases h

/-- A turn that handles a CONTACT frame hears its contact, if the database takes the row. -/
theorem Lap.hears_of_contact (h : s.event.contact = some frame) (hok : s.event.ok .upsertContact = true) :
    s.Hears (contactKey frame) := by
  obtain ⟨before, frontend, e, after⟩ := s
  cases e with
  | radio env payload =>
    obtain ⟨hcontact, rfl⟩ : (payload.head? = some 0x03 ∧ contactFrameLen ≤ payload.length) ∧
        payload.take contactFrameLen = frame := by
      simpa [Event.contact] using h
    have hok : env.dbOk .upsertContact = true := hok
    refine ⟨.put (contactOf payload hcontact.2).publicKey ⟨contactOf payload hcontact.2, some env.unix⟩, ?_,
      (contactOf_publicKey hcontact.2).symm⟩
    simp [Lap.contactsHeard, contactPut, hcontact, hok]
  | command | timeoutTick | maintenanceTick | disconnected | idle => cases h

/-- The frame that a turn handles goes before what the turn sends and sweeps. -/
theorem Lap.contactsThen_iff : s.contactsThen.lookup key = some row ↔
    s.Records key row ∨ s.before.db.contacts.lookup key = some row ∧ ¬s.Hears key := by
  have hheard : s.contactsHeard = [] ∨ ∃ k r, s.contactsHeard = [.put k r] := by
    unfold Lap.contactsHeard
    split
    · unfold contactPut
      split
      · split
        · exact Or.inr ⟨_, _, rfl⟩
        · exact Or.inl rfl
      · exact Or.inl rfl
    · exact Or.inl rfl
  unfold Lap.contactsThen Lap.Records Lap.Hears
  rcases hheard with h | ⟨k, r, h⟩
  · simp [h]
  · rw [h, Change.replay_cons, Change.replay_nil]
    by_cases hk : key = k
    · subst hk
      simp [Change.lookup_apply_put, Change.Puts, eq_comm]
    · have hputs : ¬Change.Puts key (.put k r) := hk
      rw [Change.lookup_apply_eq_some hputs]
      simp [Change.Drops, Change.Puts, hk]

/-- The row of a contact after a turn. -/
theorem Lap.contact_iff (key : Bytes) (row : ContactRow) (hvalid : s.before.clients.Valid)
    (hs : s.before.step s.frontend s.event = .ok s.after) :
    s.after.db.contacts.lookup key = some row ↔ s.contactsThen.lookup key = some row ∧
      ¬(s.Dismisses key ∧ s.event.ok .deleteContact = true) ∧ ¬s.Sweeps key := by
  have hafter : s.after.db.contacts = Change.replay s.contactsLost s.contactsThen := by
    rw [(step_journals hvalid hs).1, Lap.contactChanges_eq, Change.replay_append]
    rfl
  have hno (ch : Change Bytes ContactRow) (hch : ch ∈ s.contactsLost) : ¬ch.Puts key := fun hputs => by
    have hput := Lap.contactsLost_puts ch hch
    rw [hputs.isPut] at hput
    cases hput
  have hlost : Change.Loses key s.contactsLost s.contactsThen ↔ _ := Lap.loses_iff
  rw [Change.loses_iff_of_no_puts Lap.contactsLost_puts] at hlost
  rw [hafter, Change.lookup_replay_eq_some_iff, or_iff_left (by
    rintro ⟨j₁, j₂, heq, -⟩
    exact hno (.put key row) (by simp [heq]) rfl)]
  refine and_congr_right fun hrow => ?_
  have hdrops : (∃ ch ∈ s.contactsLost, ch.Drops key row) ↔ s.Dismisses key ∧ s.event.ok .deleteContact = true ∨
      s.Sweeps key := by
    rw [show (∃ ch ∈ s.contactsLost, ch.Drops key row) ↔
        ∃ v, s.contactsThen.lookup key = some v ∧ ∃ ch ∈ s.contactsLost, ch.Drops key v by
      simp [hrow], hlost]
    simp only [Lap.Removes, Lap.Dismisses, hrow, mem_sentToRadio, ne_eq, reduceCtorEq, not_false_eq_true, and_true]
    constructor
    · rintro (⟨q, hq, hremoved, hok⟩ | hsweeps)
      · exact Or.inl ⟨⟨q, hq, hremoved⟩, hok⟩
      · exact Or.inr hsweeps
    · rintro (⟨⟨q, hq, hremoved⟩, hok⟩ | hsweeps)
      · exact Or.inl ⟨q, hq, hremoved, hok⟩
      · exact Or.inr hsweeps
  rw [← not_or, ← hdrops]
  constructor
  · rintro hkept ⟨ch, hch, h⟩
    exact (hkept ch hch).2 h
  · exact fun hkept ch hch => ⟨hno ch hch, fun h => hkept ⟨ch, hch, h⟩⟩

theorem start_contacts {config : Config} {db : NodeState} {first : Attempt} {attempts : List Attempt}
    (h : (Core.new config db).start env first attempts = .ok c) : c.db.contacts = db.contacts := by
  obtain ⟨sent, hj, -⟩ := start_syncs h
  exact hj.contacts

/-- A turn that hears a contact handles a frame, and sweeps none. -/
theorem Lap.Hears.not_sweeps (h : s.Hears key) : ¬s.Sweeps key := by
  obtain ⟨row, hrow⟩ := Lap.hears_iff_records.mp h
  obtain ⟨_, _, _, he, -⟩ := hrow.holds
  rintro ⟨_, _, _, he', -⟩
  rw [he] at he'
  cases he'

/-- A contact is cached in a row when the last frame of it was, and it was neither taken out nor swept since. -/
theorem Service.contact_iff (h : Service l c) : c.db.contacts.lookup key = some row ↔
    Since (Deed.Turns fun s => s.Records key row ∧ ¬(s.Dismisses key ∧ s.event.ok .deleteContact = true))
      (fun d => ¬d.Turns fun s => s.Hears key ∨ s.Dismisses key ∧ s.event.ok .deleteContact = true ∨
        s.Sweeps key) l := by
  induction h with
  | install hstart =>
    rw [start_contacts hstart, ← List.nil_append [_], since_concat]
    simp [Deed.Turns, not_since_nil, NodeState.empty]
  | restart _ hstart ih =>
    rw [start_contacts hstart, ih, since_concat]
    simp [Deed.Turns]
  | @turn l c c₁ frontend e hservice hs ih =>
    have hstep := Lap.contact_iff (s := ⟨c, frontend, e, c₁⟩) key row hservice.valid hs
    have hsweeps (h : Lap.Hears ⟨c, frontend, e, c₁⟩ key) := h.not_sweeps
    have hhears (h : Lap.Records ⟨c, frontend, e, c₁⟩ key row) := Lap.hears_iff_records.mpr ⟨row, h⟩
    rw [hstep, Lap.contactsThen_iff, since_concat, ← ih]
    constructor
    · rintro ⟨hrecords | ⟨hrow, hnot⟩, hkept, hswept⟩
      · exact Or.inl ⟨hrecords, hkept⟩
      · exact Or.inr ⟨hrow, fun h => h.elim hnot fun h => h.elim hkept hswept⟩
    · rintro (⟨hrecords, hkept⟩ | ⟨hrow, hnot⟩)
      · exact ⟨Or.inl hrecords, hkept, hsweeps (hhears hrecords)⟩
      · exact ⟨Or.inr ⟨hrow, hnot ∘ Or.inl⟩, hnot ∘ Or.inr ∘ Or.inl, hnot ∘ Or.inr ∘ Or.inr⟩

/-- A contact is cached when it was heard, and neither taken out nor swept since. -/
theorem Service.cached_iff (h : Service l c) : c.db.contacts.lookup key ≠ none ↔
    Since (Deed.Turns fun s => s.Hears key ∧ ¬(s.Dismisses key ∧ s.event.ok .deleteContact = true))
      (fun d => ¬d.Turns fun s => s.Dismisses key ∧ s.event.ok .deleteContact = true ∨ s.Sweeps key) l := by
  induction h with
  | install hstart =>
    rw [start_contacts hstart, ← List.nil_append [_], since_concat]
    simp [Deed.Turns, not_since_nil, NodeState.empty]
  | restart _ hstart ih =>
    rw [start_contacts hstart, ih, since_concat]
    simp [Deed.Turns]
  | @turn l c c₁ frontend e hservice hs ih =>
    have hstep (row : ContactRow) := Lap.contact_iff (s := ⟨c, frontend, e, c₁⟩) key row hservice.valid hs
    have hsweeps (h : Lap.Hears ⟨c, frontend, e, c₁⟩ key) := h.not_sweeps
    have hhears : Lap.Hears ⟨c, frontend, e, c₁⟩ key ↔ ∃ row, Lap.Records ⟨c, frontend, e, c₁⟩ key row :=
      Lap.hears_iff_records
    rw [since_concat, ← ih]
    simp only [Option.ne_none_iff_exists', hstep, Lap.contactsThen_iff, exists_and_right, exists_or, ← hhears]
    constructor
    · rintro ⟨hhears | ⟨hrow, -⟩, hkept, hswept⟩
      · exact Or.inl ⟨hhears, hkept⟩
      · exact Or.inr ⟨hrow, fun h => h.elim hkept hswept⟩
    · rintro (⟨hhears, hkept⟩ | ⟨hrow, hnot⟩)
      · exact ⟨Or.inl hhears, hkept, hsweeps hhears⟩
      · refine ⟨?_, hnot ∘ Or.inl, hnot ∘ Or.inr⟩
        by_cases hhears : Lap.Hears ⟨c, frontend, e, c₁⟩ key
        · exact Or.inl hhears
        · exact Or.inr ⟨hrow, hhears⟩

end
end Core
end CoreSplitter
