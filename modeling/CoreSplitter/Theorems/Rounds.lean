import CoreSplitter.Theorems.Listing

/-! A client that keeps the contacts up to date in rounds, each asking for those modified since the one before: what it
    holds after a round is what is cached. -/

namespace CoreSplitter
open Bytes

/-! ### The client -/

/-- Contacts by key, and the most recent lastmod that was reported. -/
structure Phonebook where
  table : Table Bytes Bytes
  mark : Nat

namespace Phonebook

def blank : Phonebook := ⟨∅, 0⟩

def receive (p : Phonebook) (frame : Bytes) : Phonebook :=
  match frame.head? with
  | some 0x03 => { p with table := p.table.insert (Core.contactKey frame) frame }
  | some 0x04 => { p with mark := max p.mark (leNat (frame.drop 1)) }
  | _ => p

def receiveAll (p : Phonebook) (frames : List Bytes) : Phonebook := frames.foldl receive p

end Phonebook

namespace Core

/-- The CONTACT frames among some frames. -/
def contactsOf (frames : List Bytes) : List Bytes := frames.filter fun frame => frame.head? == some 0x03

/-- The turn caches no contact but with the frame that is cached already, or with a lastmod greater than those in
    `db`. -/
def Lap.Renews (s : Lap) (db : NodeState) : Prop :=
  ∀ key row, s.Records key row → servedContact s.before.db.contacts key = some (contactFrame row.contact).bytes ∨
    ∀ frame ∈ cachedFrames db, contactLastmod frame < contactLastmod (contactFrame row.contact).bytes

/-- A list served to a client that stays for it. -/
def Lap.Answers (s : Lap) (cid : ClientId) (since : Option Nat) : Prop :=
  s.Lists cid since ∧ (s.before.begin s.frontend).clients.Stays cid

/-- A client's rounds, up to the last one: the CONTACT frames it was sent, what it holds, and the database that the
    round found. -/
inductive Rounds : List Deed → List Bytes → Phonebook → NodeState → Prop
  | first {l : List Deed} {s : Lap} {cid : ClientId} : s.Answers cid none →
      Rounds (l ++ [.turn s]) (contactsOf (framesTo cid s.after.out))
      (Phonebook.blank.receiveAll (framesTo cid s.after.out)) s.before.db
  | later {l m : List Deed} {sent : List Bytes} {p : Phonebook} {db : NodeState} {s : Lap} {cid : ClientId} :
      Rounds l sent p db → (∀ u, .turn u ∈ m → (∀ key, ¬u.Deletes key) ∧ u.Renews db) → s.Answers cid (some p.mark) →
      Rounds (l ++ m ++ [.turn s]) (sent ++ contactsOf (framesTo cid s.after.out))
      (p.receiveAll (framesTo cid s.after.out)) s.before.db

section
variable {l m : List Deed} {s : Lap} {c : Core} {cid : ClientId} {p : Phonebook} {db : NodeState}
  {frames sent : List Bytes} {key frame : Bytes}

/-! ### A list received -/

/-- The most recent lastmod of some contacts. -/
def latest (frames : List Bytes) : Nat := (frames.map contactLastmod).foldl max 0

theorem latest_le {n : Nat} : latest frames ≤ n ↔ ∀ frame ∈ frames, contactLastmod frame ≤ n := by
  rw [latest, foldl_max_le, List.forall_mem_map]
  exact and_iff_right (Nat.zero_le n)

theorem latest_lt {n : Nat} (hne : frames ≠ []) (h : ∀ frame ∈ frames, contactLastmod frame < n) :
    latest frames < n := by
  obtain ⟨frame, hframe⟩ := List.exists_mem_of_ne_nil _ hne
  have hpos := h frame hframe
  have hle : latest frames ≤ n - 1 := latest_le.mpr fun frame hframe => Nat.le_sub_one_of_lt (h frame hframe)
  omega

theorem leNat_lt {p : Bytes} : leNat p < 256 ^ p.length := by
  induction p with
  | nil => decide
  | cons b p ih =>
    have hb := b.toNat_lt
    rw [leNat, List.length_cons, Nat.pow_succ]
    omega

theorem latest_bound : latest frames < 256 ^ 4 := by
  refine Nat.lt_of_le_of_lt (latest_le.mpr fun frame _ => ?_) (show 256 ^ 4 - 1 < 256 ^ 4 by decide)
  refine Nat.le_sub_one_of_lt (Nat.lt_of_lt_of_le leNat_lt (Nat.pow_le_pow_right (by decide) ?_))
  exact List.length_take_le 4 _

theorem receive_contacts (hcode : ∀ frame ∈ frames, frame.head? = some 0x03) (hnodup : (frames.map contactKey).Nodup) :
    (p.receiveAll frames).mark = p.mark ∧ ∀ key frame, (p.receiveAll frames).table.lookup key = some frame ↔
      (frame ∈ frames ∧ contactKey frame = key) ∨ (∀ f ∈ frames, contactKey f ≠ key) ∧
        p.table.lookup key = some frame := by
  induction frames generalizing p with
  | nil => simp [Phonebook.receiveAll]
  | cons f frames ih =>
    obtain ⟨hf, hcode⟩ := List.forall_mem_cons.mp hcode
    obtain ⟨hfresh, hnodup⟩ := List.nodup_cons.mp hnodup
    obtain ⟨hmark, htable⟩ := ih (p := p.receive f) hcode hnodup
    have hreceive : p.receive f = { p with table := p.table.insert (contactKey f) f } := by
      simp only [Phonebook.receive, hf]
    have hall : p.receiveAll (f :: frames) = (p.receive f).receiveAll frames := rfl
    rw [hall, hmark]
    refine ⟨by rw [hreceive], fun key frame => ?_⟩
    rw [htable, hreceive]
    dsimp only
    rw [Table.lookup_insert_eq, List.forall_mem_cons, List.mem_cons]
    by_cases hkey : key = contactKey f
    · subst hkey
      have hno : ∀ g ∈ frames, contactKey g ≠ contactKey f := fun g hg heq => hfresh (heq ▸ List.mem_map_of_mem hg)
      rw [if_pos rfl]
      constructor
      · rintro (⟨hframe, heq⟩ | ⟨-, heq⟩)
        · exact absurd heq (hno frame hframe)
        · exact Or.inl ⟨Or.inl (Option.some.inj heq).symm, by rw [Option.some.inj heq]⟩
      · rintro (⟨rfl | hframe, heq⟩ | ⟨⟨hne, -⟩, -⟩)
        · exact Or.inr ⟨hno, rfl⟩
        · exact absurd heq (hno frame hframe)
        · exact absurd rfl hne
    · rw [if_neg hkey]
      constructor
      · rintro (⟨hframe, heq⟩ | ⟨hno, hrow⟩)
        · exact Or.inl ⟨Or.inr hframe, heq⟩
        · exact Or.inr ⟨⟨Ne.symm hkey, hno⟩, hrow⟩
      · rintro (⟨rfl | hframe, heq⟩ | ⟨⟨-, hno⟩, hrow⟩)
        · exact absurd heq.symm hkey
        · exact Or.inl ⟨hframe, heq⟩
        · exact Or.inr ⟨hno, hrow⟩

/-- What a client makes of a whole list. -/
theorem receive_listing (total : Nat) (hcode : ∀ frame ∈ frames, frame.head? = some 0x03)
    (hnodup : (frames.map contactKey).Nodup) :
    contactsOf (listing total frames) = frames ∧
    (p.receiveAll (listing total frames)).mark = max p.mark (latest frames) ∧
      ∀ key frame, (p.receiveAll (listing total frames)).table.lookup key = some frame ↔
        (frame ∈ frames ∧ contactKey frame = key) ∨ (∀ f ∈ frames, contactKey f ≠ key) ∧
          p.table.lookup key = some frame := by
  obtain ⟨hmark, htable⟩ := receive_contacts (p := p) hcode hnodup
  have hend :
      p.receiveAll (listing total frames) =
      { p.receiveAll frames with mark := max (p.receiveAll frames).mark (latest frames) } := by
    have hlast : (p.receiveAll frames).receive (0x04 :: toLe 4 (latest frames)) =
        { p.receiveAll frames with mark := max (p.receiveAll frames).mark (latest frames) } := by
      simp only [Phonebook.receive, List.head?_cons, List.drop_one, List.tail_cons, leNat_toLe latest_bound]
    rw [← hlast]
    simp only [listing, Phonebook.receiveAll, List.foldl_cons, List.foldl_append, List.foldl_nil]
    rfl
  refine ⟨?_, by rw [hend, hmark], fun key frame => ?_⟩
  · simp only [contactsOf, listing, List.filter_cons, List.filter_append, List.head?_cons]
    rw [List.filter_eq_self.mpr fun frame hframe => by simp [hcode frame hframe]]
    simp
  · rw [hend]
    exact htable key frame

/-! ### Rounds -/

theorem Service.contact_bytes (h : Service l c) : servedContact c.db.contacts key = some frame ↔
    frame ∈ cachedFrames c.db ∧ contactKey frame = key := by
  rw [servedContact, Option.map_eq_some_iff, mem_cachedFrames]
  constructor
  · rintro ⟨row, hrow, rfl⟩
    exact ⟨⟨key, row, hrow, rfl⟩, (h.served hrow).2⟩
  · rintro ⟨⟨key, row, hrow, rfl⟩, rfl⟩
    exact ⟨row, (h.served hrow).2.symm ▸ hrow, rfl⟩

theorem Service.cachedFrames_code (h : Service l c) : ∀ frame ∈ cachedFrames c.db, frame.head? = some 0x03 := by
  intro frame hframe
  obtain ⟨key, row, hrow, rfl⟩ := mem_cachedFrames.mp hframe
  obtain ⟨⟨_, d, _, -, hcontact, -⟩, -⟩ := h.served hrow
  cases d with
  | boot => cases hcontact
  | turn s => exact (Event.contact_length hcontact).2

/-- The frame of a contact is as it was, or its lastmod is beyond `n`. -/
def Renewed (n : Nat) (old new : Table Bytes ContactRow) (key : Bytes) : Prop :=
  servedContact new key = servedContact old key ∨ ∃ frame, servedContact new key = some frame ∧ n < contactLastmod frame

theorem Renewed.of_eq {n : Nat} {old new new' : Table Bytes ContactRow} (h : Renewed n old new key)
    (heq : servedContact new' key = servedContact new key) : Renewed n old new' key := by
  rwa [Renewed, heq]

/-- A turn that deletes nothing leaves each contact as it was, or renews it. -/
theorem Lap.renewed {old : Table Bytes ContactRow} (hvalid : s.before.clients.Valid)
    (hs : s.before.step s.frontend s.event = .ok s.after) (hne : cachedFrames db ≠ []) (hkept : ¬s.Deletes key)
    (hrenews : s.Renews db) (h : Renewed (latest (cachedFrames db)) old s.before.db.contacts key) :
    Renewed (latest (cachedFrames db)) old s.after.db.contacts key := by
  cases hafter : s.after.db.contacts.lookup key with
  | none =>
    have hbefore : s.before.db.contacts.lookup key = none := by
      by_contra hbefore
      exact hkept ⟨hbefore, hafter⟩
    exact h.of_eq (by rw [servedContact, servedContact, hafter, hbefore])
  | some row =>
    have hserved : servedContact s.after.db.contacts key = some (contactFrame row.contact).bytes := by
      rw [servedContact, hafter]; rfl
    rcases Lap.contactsThen_iff.mp ((Lap.contact_iff key row hvalid hs).mp hafter).1 with hrecords | ⟨hbefore, -⟩
    · rcases hrenews key row hrecords with hsame | hlater
      · exact h.of_eq (hserved.trans hsame.symm)
      · exact Or.inr ⟨_, hserved, latest_lt hne hlater⟩
    · exact h.of_eq (by rw [servedContact, servedContact, hafter, hbefore])

/-- While nothing is deleted, each contact stays as it was or is renewed. -/
theorem Service.renewed (h : Service (l ++ m) c) (hl : l ≠ []) (hne : cachedFrames db ≠ [])
    (hstart : ∀ c, Service l c → c.db = db) (hm : ∀ u, .turn u ∈ m → (∀ key, ¬u.Deletes key) ∧ u.Renews db)
    (key : Bytes) : Renewed (latest (cachedFrames db)) db.contacts c.db.contacts key := by
  induction m using List.reverseRecOn generalizing c with
  | nil =>
    rw [List.append_nil] at h
    exact Or.inl (by rw [hstart c h])
  | append_singleton m d ih =>
    rw [← List.append_assoc] at h
    have hm' : ∀ u, .turn u ∈ m → (∀ key, ¬u.Deletes key) ∧ u.Renews db := fun u hu => hm u (List.mem_append_left _ hu)
    cases d with
    | turn u =>
      obtain ⟨hservice, hs, rfl⟩ := h.of_turn
      obtain ⟨hkept, hrenews⟩ := hm u (by simp)
      exact Lap.renewed hservice.valid hs hne (hkept key) hrenews (ih hservice hm')
    | boot =>
      obtain ⟨c', _, hservice, hboot⟩ := h.of_boot (by simp [hl])
      exact (ih hservice hm').of_eq (by rw [start_contacts hboot])

theorem Rounds.ne_nil (h : Rounds l sent p db) : l ≠ [] := by
  cases h <;> simp

/-- The phonebook holds what is cached, its mark is the most recent lastmod, and it was sent nothing twice. -/
structure UpToDate (sent : List Bytes) (p : Phonebook) (db : NodeState) : Prop where
  cached : cachedFrames db ≠ []
  table : ∀ key, p.table.lookup key = servedContact db.contacts key
  mark : p.mark = latest (cachedFrames db)
  nodup : sent.Nodup
  sent : ∀ frame ∈ sent, contactLastmod frame ≤ p.mark

/-- The first round. -/
theorem Service.first_round (h : Service (l ++ [.turn s]) c) (hanswers : s.Answers cid none) :
    UpToDate (contactsOf (framesTo cid s.after.out)) (Phonebook.blank.receiveAll (framesTo cid s.after.out))
    s.before.db := by
  obtain ⟨hservice, hs, -⟩ := h.of_turn
  obtain ⟨out, hreach⟩ := hservice.reachable
  obtain ⟨hne, -, hwhole⟩ := hanswers.1.frames hreach.told hs
  have hall : framesSince none (cachedFrames s.before.db) = cachedFrames s.before.db := by simp [framesSince]
  rw [hwhole hanswers.2, hall]
  have hnodup := cachedFrames_nodup hservice
  obtain ⟨hcontacts, hmark, htable⟩ := receive_listing (p := .blank) (cachedFrames s.before.db).length
    hservice.cachedFrames_code hnodup
  have hmark : _ = latest (cachedFrames s.before.db) := hmark.trans (Nat.zero_max _)
  refine ⟨hne, fun key => ?_, hmark, ?_, fun frame hframe => ?_⟩
  · ext frame
    rw [htable, hservice.contact_bytes]
    simp [Phonebook.blank]
  · rw [hcontacts]
    exact hnodup.of_map
  · rw [hcontacts] at hframe
    rw [hmark]
    exact latest_le.mp (Nat.le_refl _) frame hframe

/-- A later round. -/
theorem Service.later_round (h : Service (l ++ m ++ [.turn s]) c) (hup : UpToDate sent p db) (hl : l ≠ [])
    (hstart : ∀ c, Service l c → c.db = db) (hm : ∀ u, .turn u ∈ m → (∀ key, ¬u.Deletes key) ∧ u.Renews db)
    (hanswers : s.Answers cid (some p.mark)) :
    UpToDate (sent ++ contactsOf (framesTo cid s.after.out)) (p.receiveAll (framesTo cid s.after.out)) s.before.db := by
  obtain ⟨hservice, hs, -⟩ := h.of_turn
  obtain ⟨out, hreach⟩ := hservice.reachable
  obtain ⟨hne, -, hwhole⟩ := hanswers.1.frames hreach.told hs
  have hrenewed := hservice.renewed hl hup.cached hstart hm
  rw [← hup.mark] at hrenewed
  rw [hwhole hanswers.2]
  have hmem (f : Bytes) : f ∈ framesSince (some p.mark) (cachedFrames s.before.db) ↔
      f ∈ cachedFrames s.before.db ∧ p.mark < contactLastmod f := by
    simp [framesSince]
  have hcode : ∀ f ∈ framesSince (some p.mark) (cachedFrames s.before.db), f.head? = some 0x03 := fun f hf =>
    hservice.cachedFrames_code f ((hmem f).mp hf).1
  have hnodup : ((framesSince (some p.mark) (cachedFrames s.before.db)).map contactKey).Nodup :=
    (cachedFrames_nodup hservice).sublist (List.filter_sublist.map contactKey)
  obtain ⟨hcontacts, hmark, htable⟩ := receive_listing (p := p) (cachedFrames s.before.db).length hcode hnodup
  generalize framesSince (some p.mark) (cachedFrames s.before.db) = frames at hmem hcode hnodup hcontacts hmark htable ⊢
  have hle : ∀ f ∈ cachedFrames db, contactLastmod f ≤ p.mark := latest_le.mp (Nat.le_of_eq hup.mark.symm)
  have hlatest : (p.receiveAll (listing (cachedFrames s.before.db).length frames)).mark =
      latest (cachedFrames s.before.db) := by
    rw [hmark]
    refine Nat.le_antisymm (Nat.max_le.mpr ⟨?_, ?_⟩) (latest_le.mpr fun f hf => ?_)
    · rw [hup.mark, latest_le]
      intro f hf
      obtain ⟨c', hbefore⟩ := hservice.before hl
      have hf' : servedContact db.contacts (contactKey f) = some f := by
        rw [← hstart c' hbefore] at hf ⊢
        exact hbefore.contact_bytes.mpr ⟨hf, rfl⟩
      rcases hrenewed (contactKey f) with hsame | ⟨f', hserved, hlt⟩
      · exact latest_le.mp (Nat.le_refl _) f (hservice.contact_bytes.mp (hsame.trans hf')).1
      · refine Nat.le_trans (hle f hf) (Nat.le_trans (Nat.le_of_lt hlt) ?_)
        exact latest_le.mp (Nat.le_refl _) f' (hservice.contact_bytes.mp hserved).1
    · exact latest_le.mpr fun f hf => latest_le.mp (Nat.le_refl _) f ((hmem f).mp hf).1
    · by_cases hlt : p.mark < contactLastmod f
      · exact Nat.le_trans (latest_le.mp (Nat.le_refl _) f ((hmem f).mpr ⟨hf, hlt⟩)) (Nat.le_max_right _ _)
      · exact Nat.le_trans (Nat.le_of_not_lt hlt) (Nat.le_max_left _ _)
  have hgrows : p.mark ≤ (p.receiveAll (listing (cachedFrames s.before.db).length frames)).mark :=
    hmark ▸ Nat.le_max_left _ _
  refine ⟨hne, fun key => ?_, hlatest, ?_, fun f hf => ?_⟩
  · ext f
    rw [htable, hservice.contact_bytes]
    constructor
    · rintro (⟨hf, hkey⟩ | ⟨hno, hrow⟩)
      · exact ⟨((hmem f).mp hf).1, hkey⟩
      · rw [hup.table] at hrow
        rcases hrenewed key with hsame | ⟨f', hserved, hlt⟩
        · exact hservice.contact_bytes.mp (hsame.trans hrow)
        · obtain ⟨hf', hkey'⟩ := hservice.contact_bytes.mp hserved
          exact absurd hkey' (hno f' ((hmem f').mpr ⟨hf', hlt⟩))
    · intro hf
      have hserved : servedContact s.before.db.contacts key = some f := hservice.contact_bytes.mpr hf
      by_cases hlt : p.mark < contactLastmod f
      · exact Or.inl ⟨(hmem f).mpr ⟨hf.1, hlt⟩, hf.2⟩
      · have hother (f' : Bytes) (hserved' : servedContact s.before.db.contacts key = some f') :
            ¬p.mark < contactLastmod f' := by
          obtain rfl : f = f' := Option.some.inj (hserved.symm.trans hserved')
          exact hlt
        refine Or.inr ⟨fun f' hf' hkey' => ?_, ?_⟩
        · obtain ⟨hcached, hlt'⟩ := (hmem f').mp hf'
          exact hother f' (hservice.contact_bytes.mpr ⟨hcached, hkey'⟩) hlt'
        · rw [hup.table]
          rcases hrenewed key with hsame | ⟨f', hserved', hlt'⟩
          · exact hsame.symm.trans hserved
          · exact absurd hlt' (hother f' hserved')
  · rw [hcontacts]
    refine List.nodup_append.mpr ⟨hup.nodup, hnodup.of_map, fun f hf f' hf' heq => ?_⟩
    have hold := hup.sent f hf
    have hnew := ((hmem f').mp hf').2
    rw [← heq] at hnew
    exact absurd hnew (Nat.not_lt.mpr hold)
  · rw [hcontacts] at hf
    rcases List.mem_append.mp hf with hf | hf
    · exact Nat.le_trans (hup.sent f hf) hgrows
    · rw [hmark]
      exact Nat.le_trans (latest_le.mp (Nat.le_refl _) f hf) (Nat.le_max_right _ _)

theorem Rounds.upToDate (hrounds : Rounds l sent p db) (hrun : Service l c) : UpToDate sent p db ∧ c.db = db := by
  induction hrounds generalizing c with
  | first hanswers =>
    obtain ⟨-, hs, rfl⟩ := hrun.of_turn
    exact ⟨hrun.first_round hanswers, hanswers.1.db hs⟩
  | later hrounds hm hanswers ih =>
    obtain ⟨hbefore, hs, rfl⟩ := hrun.of_turn
    obtain ⟨c', hservice⟩ := hbefore.before hrounds.ne_nil
    obtain ⟨hup, -⟩ := ih hservice
    exact ⟨hrun.later_round hup hrounds.ne_nil (fun c h => (ih h).2) hm hanswers, hanswers.1.db hs⟩

/-- After every round of an incremental sync the client holds the cached contacts, and it was sent no frame twice. -/
theorem incremental_sync (hrun : Service l c) (hrounds : Rounds l sent p db) :
    (∀ key, p.table.lookup key = servedContact c.db.contacts key) ∧ sent.Nodup := by
  obtain ⟨hup, rfl⟩ := hrounds.upToDate hrun
  exact ⟨hup.table, hup.nodup⟩

/-- A frame that the radio sends while nothing is asked of it deletes no contact. -/
theorem Lap.keeps {env : Env} (hvalid : s.before.clients.Valid) (hs : s.before.step s.frontend s.event = .ok s.after)
    (he : s.event = .radio env frame) (hsent : sentToRadio s.after.out = []) : ¬s.Deletes key := by
  rintro ⟨hbefore, hafter⟩
  obtain ⟨row, hthen⟩ : ∃ row, s.contactsThen.lookup key = some row := by
    by_cases hhears : s.Hears key
    · exact (Lap.hears_iff_records.mp hhears).imp fun row hrecords => Lap.contactsThen_iff.mpr (Or.inl hrecords)
    · exact (Option.ne_none_iff_exists'.mp hbefore).imp fun row hrow => Lap.contactsThen_iff.mpr (Or.inr ⟨hrow, hhears⟩)
  have hrow := (Lap.contact_iff key row hvalid hs).mpr ⟨hthen, ?_, ?_⟩
  · rw [hafter] at hrow
    cases hrow
  · rintro ⟨⟨q, hq, -⟩, -⟩
    have hq := mem_sentToRadio.mpr hq
    rw [hsent] at hq
    cases hq
  · rintro ⟨_, _, _, he', -⟩
    rw [he] at he'
    cases he'

theorem incremental_sync_renewed_run : Except.Holds (do
    let c₀ ← fresh
    let (t, c₁) ← c₀.laps (filled ++ [([[.connect]], .idle)])
    let c₂ ← c₁.step [] (.command sound ⟨1, 5000, [0x04]⟩)
    let c₃ ← c₂.step [] (.radio sound (sevens.set 147 8))
    let c₄ ← c₃.step [] (.command sound ⟨1, 5000, [0x04, 7, 7, 7, 7]⟩)
    return (c₀, t, c₁, c₂, c₃, c₄)) fun (_, _, c₁, c₂, c₃, c₄) =>
      .client 1 none 0 sevens .cached ∈ c₂.out ∧ .client 1 none 0 (sevens.set 147 8) .cached ∈ c₄.out ∧
      (Phonebook.blank.receiveAll (framesTo 1 c₂.out)).mark = leNat [7, 7, 7, 7] ∧
      contactsOf (framesTo 1 c₂.out) = [sevens] ∧
      contactsOf (framesTo 1 c₄.out) = [sevens.set 147 8] ∧ sentToRadio c₃.out = [] ∧ cachedFrames c₁.db = [sevens] ∧
      1 ∈ c₁.clients.channels ∧ 1 ∈ c₃.clients.channels := by
  decide +kernel

/-- A contact that is modified, and the client that gets it once more. -/
theorem incremental_sync_renewed : ∃ l c p db, Service l c ∧ Rounds l [sevens, sevens.set 147 8] p db ∧
    (∀ key, p.table.lookup key = servedContact c.db.contacts key) ∧ [sevens, sevens.set 147 8].Nodup := by
  obtain ⟨⟨c₀, t, c₁, c₂, c₃, c₄⟩, hrun, hsent₂, hsent₄, hmark, hfirst, hsecond, hsent₃, hcached, hclient₁,
      hclient₃⟩ := incremental_sync_renewed_run
  obtain ⟨_, hboot, hrun⟩ := Except.of_bind_eq_ok hrun
  obtain ⟨⟨_, _⟩, hlaps, hrun⟩ := Except.of_bind_eq_ok hrun
  obtain ⟨_, hstep₂, hrun⟩ := Except.of_bind_eq_ok hrun
  obtain ⟨_, hstep₃, hrun⟩ := Except.of_bind_eq_ok hrun
  obtain ⟨_, hstep₄, hrun⟩ := Except.of_bind_eq_ok hrun
  cases hrun
  obtain ⟨l, hservice⟩ : ∃ l, Service l c₁ := ⟨_, (Service.install hboot).trace (Trace.of_laps hlaps).1⟩
  have hservice₃ := (hservice.turn hstep₂).turn hstep₃
  let s₂ : Lap := ⟨c₁, [], .command sound ⟨1, 5000, [0x04]⟩, c₂⟩
  let s₃ : Lap := ⟨c₂, [], .radio sound (sevens.set 147 8), c₃⟩
  let s₄ : Lap := ⟨c₃, [], .command sound ⟨1, 5000, [0x04, 7, 7, 7, 7]⟩, c₄⟩
  have hanswers₂ : s₂.Answers 1 none := ⟨⟨_, _, rfl, rfl, rfl, rfl, _, _, _, hsent₂⟩, hclient₁, List.forall_mem_nil _⟩
  have hanswers₄ : s₄.Answers 1 (some (Phonebook.blank.receiveAll (framesTo 1 s₂.after.out)).mark) :=
    ⟨⟨_, _, rfl, rfl, rfl, congrArg some hmark.symm, _, _, _, hsent₄⟩, hclient₃, List.forall_mem_nil _⟩
  have hbetween (u : Lap) (hu : .turn u ∈ [Deed.turn s₃]) : (∀ key, ¬u.Deletes key) ∧ u.Renews s₂.before.db := by
    cases List.mem_singleton.mp hu
    refine ⟨fun key => Lap.keeps (hservice.turn hstep₂).valid hstep₃ rfl hsent₃, fun key row hrecords => Or.inr ?_⟩
    obtain ⟨_, _, frame, -, hcontact, -, hbytes, -⟩ := hrecords.holds
    have hheard : (Event.radio sound (sevens.set 147 8)).contact = some (sevens.set 147 8) := by decide +kernel
    obtain rfl : sevens.set 147 8 = frame := Option.some.inj (hheard.symm.trans hcontact)
    rw [hbytes, hcached]
    decide +kernel
  have hrounds := Rounds.later (Rounds.first (l := l) hanswers₂) hbetween hanswers₄
  rw [show framesTo 1 s₂.after.out = framesTo 1 c₂.out from rfl, show framesTo 1 s₄.after.out = framesTo 1 c₄.out
    from rfl, hfirst, hsecond] at hrounds
  exact ⟨_, _, _, _, hservice₃.turn hstep₄, hrounds, incremental_sync (hservice₃.turn hstep₄) hrounds⟩

end
end Core
end CoreSplitter
