import CoreSplitter.Theorems.Resume

/-! No message is lost to a cursor: what a cursor has passed was sent to its client, in a run where each message that is
    stored reaches every client that is connected then, but for the one it came from. -/

namespace CoreSplitter
open Bytes

namespace NodeState

variable {db : NodeState} {m : MessageRow} {frame : Bytes}

theorem Ordered.messageFrame (h : db.Ordered) (hm : m ∈ db.messages) (hframe : m.frame = some frame) :
    db.messageFrame m.id = some frame := by
  unfold NodeState.messageFrame
  cases hfind : db.messages.find? fun m' => m'.id == m.id && m'.frame.isSome with
  | none => exact absurd (List.find?_eq_none.mp hfind m hm) (by simp [hframe])
  | some m' =>
    have hm' := List.find?_some hfind
    simp only [Bool.and_eq_true, beq_iff_eq] at hm'
    rw [h.eq_of_id (List.mem_of_find?_eq_some hfind) hm hm'.1]
    exact hframe

theorem Ordered.messageHead_le (h : db.Ordered) (hseq : 0 ≤ db.messageSeq) : db.messageHead ≤ db.messageSeq := by
  refine foldl_max_le.mpr ⟨hseq, fun id hid => ?_⟩
  obtain ⟨m, hm, rfl⟩ := List.mem_map.mp hid
  exact h.bounded _ ⟨m, hm, rfl⟩

end NodeState

namespace Core

theorem Reaches.of_raised {id id' : MessageId} {rows rows' : Table Identity ClientRow} {who : Identity}
    (h : Reaches id rows' who) (hraised : Raised id' rows rows') : Reaches id rows who ∨ id ≤ id' := by
  obtain ⟨row, hrow, hle⟩ := h
  rcases hraised who with hsame | ⟨now, hnew⟩
  · exact Or.inl ⟨row, hsame ▸ hrow, hle⟩
  · rw [hnew] at hrow
    obtain rfl := Option.some.inj hrow
    cases hlookup : rows.lookup who with
    | none =>
      rw [hlookup] at hle
      exact Or.inr hle
    | some row =>
      rw [hlookup] at hle
      exact (le_max_iff.mp hle).imp_left fun hle => ⟨row, hlookup, hle⟩

/-- `N` are the messages that were stored for a client, `D` those of them that it was sent. What its cursor has
    passed it was sent, and so was what a session of it has not pending. -/
structure Lossless (N D : Identity → MessageRow → Prop) (c : Core) : Prop where
  ordered : c.db.Ordered
  nonneg : 0 ≤ c.db.messageSeq
  bounded : ∀ who id, Reaches id c.db.clients who → id ≤ c.db.messageSeq
  here : ∀ who m, N who m → m ∈ c.db.messages ∧ NodeState.replayableTo who m = true ∧ c.db.clients.lookup who ≠ none
  told : ∀ who m, N who m → Reaches m.id c.db.clients who → D who m
  sorted : ∀ cid s, c.sessions.lookup cid = some s → s.pending.Pairwise (· < ·)
  pending : ∀ cid s, c.sessions.lookup cid = some s → ∀ m, N s.identity m → D s.identity m ∨ m.id ∈ s.pending

section
variable {N N' D D' : Identity → MessageRow → Prop} {c c₁ : Core} {env : Env} {cid : ClientId} {s : Session}
  {who : Identity} {cmd : ClientCommand}

theorem Lossless.quiet (h : Lossless N D c) (hquiet : Quiet c c₁) : Lossless N D c₁ := by
  obtain ⟨-, hmessages, hseq, hclients, hsessions⟩ := hquiet.fields
  refine ⟨h.ordered.sublist (hmessages ▸ List.Sublist.refl _) hseq, hseq ▸ h.nonneg, ?_, ?_, ?_, ?_, ?_⟩
  · rw [hclients, hseq]
    exact h.bounded
  · rw [hmessages, hclients]
    exact h.here
  · rw [hclients]
    exact h.told
  · rw [hsessions]
    exact h.sorted
  · rw [hsessions]
    exact h.pending

theorem Lossless.mono (h : Lossless N D c) (hN : ∀ who m, N' who m → N who m) (hD : ∀ who m, D who m → D' who m) :
    Lossless N' D' c where
  ordered := h.ordered
  nonneg := h.nonneg
  bounded := h.bounded
  here who m hm := h.here who m (hN _ _ hm)
  told who m hm hreaches := hD _ _ (h.told who m (hN _ _ hm) hreaches)
  sorted := h.sorted
  pending cid s hs m hm := (h.pending cid s hs m (hN _ _ hm)).imp_left (hD _ _)

/-- Cursors move over what was sent, and sessions are drained of it. -/
theorem Lossless.move (h : Lossless N D c) (hsub : ∀ who m, D who m → D' who m)
    (hmessages : c₁.db.messages = c.db.messages) (hseq : c₁.db.messageSeq = c.db.messageSeq)
    (hknown : ∀ who, c.db.clients.lookup who ≠ none → c₁.db.clients.lookup who ≠ none)
    (hreaches : ∀ who id, Reaches id c₁.db.clients who → Reaches id c.db.clients who ∨ id ≤ c.db.messageSeq ∧ ∀ m,
      N who m → m.id = id → D' who m) (hsessions : ∀ cid s, c₁.sessions.lookup cid = some s →
      s.pending.Pairwise (· < ·) ∧ ∀ m, N s.identity m → D' s.identity m ∨ m.id ∈ s.pending) :
    Lossless N D' c₁ where
  ordered := h.ordered.sublist (hmessages ▸ List.Sublist.refl _) hseq
  nonneg := hseq ▸ h.nonneg
  bounded who id hid := by
    rw [hseq]
    exact (hreaches who id hid).elim (h.bounded who id) And.left
  here who m hm := by
    obtain ⟨hmem, hreplayable, hrow⟩ := h.here who m hm
    exact ⟨hmessages ▸ hmem, hreplayable, hknown who hrow⟩
  told who m hm hid := (hreaches who m.id hid).elim (fun hid => hsub _ _ (h.told who m hm hid)) fun hnew =>
    hnew.2 m hm rfl
  sorted cid s hs := (hsessions cid s hs).1
  pending cid s hs := (hsessions cid s hs).2

theorem Owes.of_ahead {backlog : Backlog} {now : Int} {row : ClientRow} {m : MessageRow} (hm : m ∈ c.db.messages)
    (hreplayable : NodeState.replayableTo who m = true) (hrow : c.db.clients.lookup who = some row)
    (hle : row.lastSeenId < m.id) : c.db.Owes backlog now who m.id := by
  refine ⟨m, hm, rfl, hreplayable, ?_⟩
  rw [NodeState.clientCursor, hrow]
  exact hle

/-- A client that is identified has all pending that it was not sent. -/
theorem Lossless.register (h : Lossless N D c) (hok : ∀ call, env.dbOk call = true) :
    Lossless N D (c.registerSession env cmd) := by
  obtain ⟨hsorted, hmissed⟩ := missedBy_spec c env (cmd.localPort, appNameOf cmd.payload) h.ordered
  have howed (m : MessageRow) (hm : N (cmd.localPort, appNameOf cmd.payload) m) :
      Reaches m.id c.db.clients (cmd.localPort, appNameOf cmd.payload) ∨
      m.id ∈ c.missedBy env (cmd.localPort, appNameOf cmd.payload) := by
    obtain ⟨hmem, hreplayable, hrow⟩ := h.here _ m hm
    obtain ⟨row, hrow⟩ := Option.ne_none_iff_exists'.mp hrow
    rcases le_or_gt m.id row.lastSeenId with hle | hlt
    · exact Or.inl ⟨row, hrow, hle⟩
    · exact Or.inr ((mem_missedBy (hok _) (hok _) h.ordered).mpr (Owes.of_ahead hmem hreplayable hrow hlt))
  have hmove : (c.registerSession env cmd).db.messages = c.db.messages ∧
      (c.registerSession env cmd).db.messageSeq = c.db.messageSeq := by
    unfold registerSession
    simp only [hok, if_true]
    exact ⟨rfl, rfl⟩
  have htouched (who : Identity) : Touched _ env.unix who c (c.registerSession env cmd) := registerSession_touched
  refine h.move (fun _ _ => id) hmove.1 hmove.2 (fun who hknown => ?_) (fun who id hid => ?_) fun cid s hs => ?_
  · rcases htouched who with ⟨-, row, hrow, -⟩ | ⟨-, hsame⟩
    · rw [hrow]
      exact Option.some_ne_none row
    · rw [hsame]
      exact hknown
  · by_cases hwho : (cmd.localPort, appNameOf cmd.payload) = who
    · subst hwho
      rw [registerSession_reaches (hok _)] at hid
      refine hid.imp_right fun hid => ?_
      simp only [hok, if_true] at hid
      split at hid
      · rename_i hnone
        refine ⟨le_trans hid (h.ordered.messageHead_le h.nonneg), fun m hm _ => ?_⟩
        rcases howed m hm with hreaches | hmem
        · exact h.told _ m hm hreaches
        · rw [hnone] at hmem
          cases hmem
      · rename_i first rest hpending
        have hfirst : first ∈ c.missedBy env (cmd.localPort, appNameOf cmd.payload) := hpending ▸ List.mem_cons_self
        have hbound := h.ordered.bounded first (hmissed first hfirst).1
        have hbelow : id < first := Int.le_sub_one_iff.mp hid
        refine ⟨le_trans hbelow.le hbound, fun m hm hmid => ?_⟩
        rcases howed m hm with hreaches | hmem
        · exact h.told _ m hm hreaches
        · -- What is pending is not below the first of it.
          rw [hpending] at hmem hsorted
          rcases List.mem_cons.mp hmem with heq | hmem
          · exact absurd (hmid.symm.trans heq) hbelow.ne
          · exact absurd hmid (lt_trans hbelow ((List.pairwise_cons.mp hsorted).1 _ hmem)).ne'
    · obtain ⟨-, hsame⟩ := (htouched who).resolve_left fun h => hwho h.1.1
      rw [Reaches, hsame] at hid
      exact Or.inl hid
  · rw [registerSession_sessions, Table.lookup_insert_eq] at hs
    split at hs
    · obtain rfl := Option.some.inj hs
      exact ⟨hsorted, fun m hm => (howed m hm).imp_left (h.told _ m hm)⟩
    · exact ⟨h.sorted cid s hs, h.pending cid s hs⟩

/-- A GET_MSG passes over no message that its client was not sent, but for the one that it replays. -/
theorem Lossless.replay (h : Lossless N D c) (hok : ∀ call, env.dbOk call = true) : Lossless N (fun who m => D who m ∨
    c.identityOf cid = some who ∧ ∃ frame, c.nextMissed env cid = some (m.id, frame) ∧ m.frame = some frame)
    (c.replayNextMissed env cid).2 := by
  rcases replayNextMissed_pops c env cid with ⟨-, hsame⟩ | ⟨s, taken, rest, hs, hpops, hsessions, hreaches⟩
  · rw [hsame]
    exact h.mono (fun _ _ => id) fun _ _ => Or.inl
  have hframe (m : MessageRow) (hm : N s.identity m) :
      ∃ frame, m.frame = some frame ∧ c.db.messageFrame m.id = some frame := by
    obtain ⟨hmem, hreplayable, -⟩ := h.here _ m hm
    simp only [NodeState.replayableTo, Bool.and_eq_true] at hreplayable
    obtain ⟨frame, hframe⟩ := Option.isSome_iff_exists.mp hreplayable.1
    exact ⟨frame, hframe, h.ordered.messageFrame hmem hframe⟩
  have hskips {skipped : List MessageId} (hnone : c.firstFrame env skipped = none) (m : MessageRow)
      (hm : N s.identity m) : m.id ∉ skipped := by
    obtain ⟨frame, -, hstored⟩ := hframe m hm
    intro hmem
    rw [(firstFrame_eq_none hok).mp hnone m.id hmem] at hstored
    cases hstored
  -- What was pending is replayed, or left.
  have hleft (m : MessageRow) (hm : N s.identity m) : (D s.identity m ∨ c.identityOf cid = some s.identity ∧
      ∃ frame, c.nextMissed env cid = some (m.id, frame) ∧ m.frame = some frame) ∨ m.id ∈ rest := by
    rcases h.pending cid s hs m hm with hd | hmem
    · exact Or.inl (Or.inl hd)
    rcases hpops with ⟨hnone, -, -⟩ | ⟨skipped, id, frame, hpending, -, hskipped, hfirst⟩
    · exact absurd hmem (hskips hnone m hm)
    · rw [hpending] at hmem
      rcases List.mem_append.mp hmem with hmem | hmem
      · exact absurd hmem (hskips hskipped m hm)
      · refine (List.mem_cons.mp hmem).imp_left fun heq => Or.inr ⟨identityOf_of_lookup hs, frame, ?_, ?_⟩
        · rw [nextMissed, hs, heq]
          exact hfirst
        · obtain ⟨frame', hframe', hstored⟩ := hframe m hm
          rw [heq, (firstFrame_stored hfirst).1] at hstored
          exact hframe'.trans hstored.symm
  have hsorted := h.sorted cid s hs
  obtain ⟨-, hmessages, hseq, -⟩ := replayNextMissed_fields c env cid
  have htouched (who : Identity) : Touched _ env.unix who c (c.replayNextMissed env cid).2 := replayNextMissed_touched
  refine h.move (fun _ _ => Or.inl) hmessages hseq (fun who hknown => ?_) (fun who id hid => ?_) fun cid' s' hs' => ?_
  · rcases htouched who with ⟨-, row, hrow, -⟩ | ⟨-, hsame⟩
    · rw [hrow]
      exact Option.some_ne_none row
    · rw [hsame]
      exact hknown
  · by_cases hwho : s.identity = who
    · subst hwho
      refine ((hreaches id).mp hid).imp_right fun hnew => ?_
      rcases hnew with ⟨-, id', rfl, hle⟩ | ⟨-, -, rfl, hle⟩
      · rcases hpops with ⟨-, hnone, -⟩ | ⟨skipped, id'', frame, hpending, heq, -, hfirst⟩
        · cases hnone
        · obtain rfl := Option.some.inj heq
          refine ⟨le_trans hle (h.ordered.bounded _ (NodeState.has_of_messageFrame (firstFrame_stored hfirst).1)),
            fun m hm hmid => ?_⟩
          refine (hleft m hm).resolve_right fun hrest => ?_
          rw [hpending] at hsorted
          have hlater : id' < m.id := List.rel_of_pairwise_cons (List.pairwise_append.mp hsorted).2.1 hrest
          exact absurd hle (not_le.mpr (hmid ▸ hlater))
      · exact ⟨le_trans hle (h.ordered.messageHead_le h.nonneg),
          fun m hm _ => (hleft m hm).resolve_right List.not_mem_nil⟩
    · have hsame := ((htouched who).resolve_left fun htouched => hwho ?_).2
      · rw [Reaches, hsame] at hid
        exact Or.inl hid
      · exact Option.some.inj ((identityOf_of_lookup hs).symm.trans htouched.1.1)
  · rw [hsessions] at hs'
    split at hs'
    · obtain rfl := Option.some.inj hs'
      refine ⟨?_, hleft⟩
      rcases hpops with ⟨-, -, rfl⟩ | ⟨skipped, id, frame, hpending, -⟩
      · exact List.Pairwise.nil
      · rw [hpending] at hsorted
        exact (List.pairwise_cons.mp (List.pairwise_append.mp hsorted).2.1).2
    · exact ⟨h.sorted cid' s' hs', fun m hm => (h.pending cid' s' hs' m hm).imp_left Or.inl⟩

/-- A message is stored, and each client that is connected then is sent it, or sent it itself. -/
theorem Lossless.store (h : Lossless N D c) (hok : ∀ call, env.dbOk call = true) {msg : NewMessage}
    (hsub : ∀ who m, D who m → D' who m)
    (hheard : ∀ cid s, c.sessions.lookup cid = some s → cid ∈ c.clients.lock.channels →
      NodeState.replayableTo s.identity (c.db.newRow env.unix msg) = true → D' s.identity (c.db.newRow env.unix msg)) :
    Lossless (fun who m => N who m ∨ m = c.db.newRow env.unix msg ∧ c.db.clients.lookup who ≠ none ∧
      NodeState.replayableTo who m = true) D' (c.storeMessage env msg) := by
  obtain ⟨rows, hform, hraised, -⟩ := storeMessage_form c msg (hok _)
  have htouched (who : Identity) : Touched _ env.unix who c (c.storeMessage env msg) := storeMessage_touched
  have hsession {cid : ClientId} {s : Session} (hs : (c.storeMessage env msg).sessions.lookup cid = some s) :
      c.sessions.lookup cid = some s ∧ cid ∈ c.clients.lock.channels := by
    rw [hform] at hs
    obtain ⟨hs, hcid⟩ := Table.lookup_retain_eq_some.mp hs
    exact ⟨hs, List.contains_iff_mem.mp hcid⟩
  have hseq : (c.storeMessage env msg).db.messageSeq = c.db.messageSeq + 1 := by rw [hform]; rfl
  have hmessages : (c.storeMessage env msg).db.messages = c.db.messages ++ [c.db.newRow env.unix msg] := by
    rw [hform]; rfl
  have hclients : Raised (c.db.messageSeq + 1) c.db.clients (c.storeMessage env msg).db.clients := by
    rw [hform]; exact hraised
  have hordered : (c.db.insertMessage env.unix msg).Ordered := h.ordered.insert
  refine ⟨hordered.sublist (by rw [hmessages]; exact List.Sublist.refl _) hseq, ?_, fun who id hid => ?_, ?_, ?_,
    fun cid s hs => ?_, fun cid s hs => ?_⟩
  · rw [hseq]
    exact Int.le_add_one h.nonneg
  · rw [hseq]
    exact (hid.of_raised hclients).elim (fun hid => Int.le_add_one (h.bounded who id hid)) fun hle => hle
  · have hknown {who : Identity} (hknown : c.db.clients.lookup who ≠ none) :
        (c.storeMessage env msg).db.clients.lookup who ≠ none := by
      rcases hclients who with hsame | ⟨now, hrow⟩
      · rw [hsame]
        exact hknown
      · rw [hrow]
        exact Option.some_ne_none _
    rintro who m (hm | ⟨rfl, hrow, hreplayable⟩)
    · obtain ⟨hmem, hreplayable, hrow⟩ := h.here who m hm
      exact ⟨hmessages ▸ List.mem_append_left _ hmem, hreplayable, hknown hrow⟩
    · exact ⟨hmessages ▸ List.mem_append_right _ (List.mem_singleton_self _), hreplayable, hknown hrow⟩
  · intro who m hm hid
    rcases htouched who with ⟨⟨-, -, hcaught⟩, -⟩ | ⟨-, hsame⟩
    · obtain ⟨⟨cid, s⟩, hrow, rfl⟩ := List.mem_map.mp (List.mem_dedup.mp hcaught)
      obtain ⟨hrow, hempty⟩ := List.mem_filter.mp hrow
      obtain ⟨hs, hcid⟩ := hsession (Table.mem_rows.mp hrow)
      rcases hm with hm | ⟨rfl, -, hreplayable⟩
      · refine hsub _ _ ((h.pending cid s hs m hm).resolve_right ?_)
        rw [List.isEmpty_iff.mp hempty]
        exact List.not_mem_nil
      · exact hheard cid s hs hcid hreplayable
    · rw [Reaches, hsame] at hid
      rcases hm with hm | ⟨rfl, -, -⟩
      · exact hsub _ _ (h.told who m hm hid)
      · exact absurd (h.bounded who _ hid) (not_le.mpr (Int.lt_succ _))
  · exact h.sorted cid s (hsession hs).1
  · obtain ⟨hs, hcid⟩ := hsession hs
    rintro m (hm | ⟨rfl, -, hreplayable⟩)
    · exact (h.pending cid s hs m hm).imp_left (hsub _ _)
    · exact Or.inl (hheard cid s hs hcid hreplayable)

theorem Lossless.maintain (h : Lossless N D c) (hmessages : ∀ m ∈ c.db.messages, m ∈ (c.maintain env).db.messages)
    (hclients : ∀ who, c.db.clients.lookup who ≠ none → (c.maintain env).db.clients.lookup who ≠ none) :
    Lossless N D (c.maintain env) := by
  have hpurged := maintain_purged c env
  have hsame {who : Identity} {row : ClientRow} (hrow : (c.maintain env).db.clients.lookup who = some row) :
      c.db.clients.lookup who = some row := by
    rcases hpurged.clients who with hsame | ⟨-, hgone, -⟩
    · exact hsame ▸ hrow
    · rw [hgone] at hrow
      cases hrow
  have hreaches {who : Identity} {id : MessageId} (hid : Reaches id (c.maintain env).db.clients who) :
      Reaches id c.db.clients who := by
    obtain ⟨row, hrow, hle⟩ := hid
    exact ⟨row, hsame hrow, hle⟩
  refine ⟨h.ordered.sublist hpurged.messages hpurged.seq, hpurged.seq ▸ h.nonneg, fun who id hid => ?_,
    fun who m hm => ?_, fun who m hm hid => ?_, h.sorted, h.pending⟩
  · rw [hpurged.seq]
    exact h.bounded who id (hreaches hid)
  · obtain ⟨hmem, hreplayable, hrow⟩ := h.here who m hm
    exact ⟨hmessages m hmem, hreplayable, hclients who hrow⟩
  · exact h.told who m hm (hreaches hid)

/-- The sessions are gone when the proxy is started, the messages and the cursors are not. -/
theorem Lossless.start {config : Config} {first : Attempt} {attempts : List Attempt} (h : Lossless N D c)
    (hs : (Core.new config c.db).start env first attempts = .ok c₁) : Lossless N D c₁ := by
  have hnew : Lossless N D (Core.new config c.db) := by
    refine ⟨⟨h.ordered.ascending, h.ordered.bounded⟩, h.nonneg, h.bounded, h.here, h.told, fun cid s hs => ?_,
      fun cid s hs => ?_⟩
    · cases hs
    · cases hs
  exact hnew.quiet (start_quiet hs)

end

/-! ### Turns -/

/-- No message and no client is forgotten from `c` to `c₁`. -/
def Recalls (c c₁ : Core) : Prop :=
  (∀ m ∈ c.db.messages, m ∈ c₁.db.messages) ∧ ∀ who, c.db.clients.lookup who ≠ none → c₁.db.clients.lookup who ≠ none

namespace Lap

/-- The turn stores the message, one for a client that was known then: it has a frame, and the client did not send
    it. -/
def Incoming (s : Lap) (who : Identity) (m : MessageRow) : Prop :=
  m ∈ storedRows s.after.out ∧ s.before.db.clients.lookup who ≠ none ∧ NodeState.replayableTo who m = true

/-- The turn sends the message to a connection of the client, in its layout: as a replay, or live as it is stored. -/
def Delivers (s : Lap) (who : Identity) (m : MessageRow) : Prop :=
  ∃ cid frame, s.before.identityOf cid = some who ∧ m.frame = some frame ∧
  (.client cid (some who) (s.before.protocolVersion cid) (messageFrameFor (s.before.protocolVersion cid) frame)
      (.replay m.id) ∈ s.after.out ∨
    m ∈ storedRows s.after.out ∧ copyFor s.before.protocolVersion frame cid ∈ s.after.out.filterMap liveCopy)

/-- The turn forgets no message and no client. -/
def Spares (s : Lap) : Prop := Recalls s.before s.after

end Lap

/-- A message comes while a GET_MSG is in flight, or is taken to answer a request of a connection that has the
    identity of each one connected; and the radio accepts a message while its sender has the identity that it sent
    the message under, unless that of another connection. -/
def AttendedFrame (c : Core) (frame : Bytes) : Prop := ∀ code, frame.head? = some code →
  (Storable code frame → ∀ cid s, c.sessions.lookup cid = some s → cid ∈ c.clients.lock.channels →
      ∃ f, c.inFlight = some f ∧
    (f.cmdCode = 0x0A ∨ (f.awaiting.classify code).1 = true ∧
      ∃ cid', f.clientId = some cid' ∧ cid' ∈ c.clients.lock.channels ∧ c.identityOf cid' = some s.identity)) ∧
  ∀ f sender s, c.inFlight = some f → f.awaiting.classify code = (true, true) → code ≠ 0x01 → f.clientId = some sender →
    c.radioPubkey ≠ none → f.payload.IsSend → c.sessions.lookup sender = some s → sender ∈ c.clients.lock.channels →
      f.origin = some s.identity ∨ ∃ cid ∈ c.clients.lock.channels, cid ≠ sender ∧ c.identityOf cid = some s.identity

/-- What the turn stores, if it stores a message, reaches all that are connected. -/
def Lap.Attends (s : Lap) : Prop := ∀ env frame, s.event = .radio env frame →
    (s.before.begin s.frontend).AttendedFrame frame

section
variable {N D : Identity → MessageRow → Prop} {c c₁ b : Core} {env : Env} {cid : ClientId} {s : Session}
  {who : Identity} {cmd : ClientCommand} {f : InFlight} {code : UInt8} {frame : Bytes}
  {frontend : List (List FrontendOp)} {e : Event} {v : ClientId → UInt8}

theorem lock_lock_of_short {clients : Clients} (h : clients.schedule.length ≤ 1) :
    clients.lock.lock = clients.lock := by
  have hlast : clients.lock.schedule = [] := by
    unfold Clients.lock
    split
    · assumption
    · rename_i ops rest hschedule
      rw [hschedule, List.length_cons] at h
      rw [Clients.foldl_apply_schedule]
      exact List.length_eq_zero_iff.mp (Nat.le_zero.mp (Nat.le_of_succ_le_succ h))
  generalize clients.lock = t at hlast
  rw [Clients.lock, hlast]

theorem onward_of_short {clients t : Clients} (h : clients.schedule.length ≤ 1) (honward : clients.Onward t) :
    t = clients ∨ t = clients.lock := by
  induction honward with
  | refl => exact Or.inl rfl
  | tail _ heq ih =>
    rw [heq]
    rcases ih with rfl | rfl
    · exact Or.inr rfl
    · exact Or.inr (lock_lock_of_short h)

/-- A GET_MSG in flight has every one connected hear the message. -/
theorem mem_hearers (hshort : c.clients.schedule.length ≤ 1) (hf : c.inFlight = some f)
    (hawaiting : f.awaiting = awaitingFor f.payload) (hpoll : f.cmdCode = 0x0A) (hmessage : Scope.fansOut code)
    (hcid : cid ∈ c.clients.lock.channels) : cid ∈ c.hearers c.clients.lock code := by
  have hmatches : (f.awaiting.classify code).1 = true := by
    rw [hawaiting, classify_poll hpoll]
    rcases hmessage with rfl | rfl | rfl | rfl <;> rfl
  simp only [hearers, hf, hmatches, if_true, InFlight.hearers, lock_lock_of_short hshort, hpoll, hmessage,
    and_self, ite_self, List.mem_append, List.mem_filter]
  by_cases hclient : f.clientId = some cid
  · exact Or.inl ⟨by simp [hclient], List.contains_iff_mem.mpr hcid⟩
  · exact Or.inr ⟨hcid, by simpa using hclient⟩

/-- What a frame of the radio has stored reaches each client that is connected then, but for the one that sent it. -/
theorem Lossless.hear (h : Lossless N D c) (ht : Told v .any c) (hout : c.out = [])
    (hawaiting : ∀ f, c.inFlight = some f → f.awaiting = awaitingFor f.payload) (hok : ∀ call, env.dbOk call = true)
    (hshort : c.clients.schedule.length ≤ 1) (hattended : c.AttendedFrame frame)
    (hs : c.handleRadioRx env frame = .ok c₁) :
    Lossless (fun who m => N who m ∨ m ∈ storedRows c₁.out ∧ c.db.clients.lookup who ≠ none ∧
      NodeState.replayableTo who m = true)
      (fun who m => D who m ∨ ∃ cid frame, c.identityOf cid = some who ∧ m.frame = some frame ∧ m ∈ storedRows c₁.out ∧
        copyFor v frame cid ∈ c₁.out.filterMap liveCopy) c₁ := by
  have hrows {l : List MessageRow} (h : Appends storedRow l c c₁) : storedRows c₁.out = l := by
    rw [storedRows, h, hout]
    rfl
  have hcopies {l : List (ClientId × UInt8 × Bytes)} (h : Appends liveCopy l c c₁) : c₁.out.filterMap liveCopy = l := by
    rw [h, hout]
    rfl
  have hlock := lock_lock_of_short hshort
  cases handleRadioRx_mailed ht hs (hok _) hawaiting with
  | nothing quiet rows =>
    rw [hrows rows]
    refine (h.quiet quiet).mono (fun who m hm => hm.resolve_right ?_) fun _ _ => Or.inl
    rintro ⟨hnone, -⟩
    cases hnone
  | @message code msg head long same origin after copies rows =>
    rw [hrows rows, hcopies copies]
    refine ((h.store hok (fun _ _ => Or.inl) fun cid s hsession hcid _ => Or.inr ?_).quiet after).mono ?_ fun _ _ => id
    · have hcopied {cid' : ClientId} (hmem : cid' ∈ c.hearers c.clients.lock code)
          (hwho : c.identityOf cid' = some s.identity) :
          ∃ cid frame', c.identityOf cid = some s.identity ∧ (c.db.newRow env.unix msg).frame = some frame' ∧
            c.db.newRow env.unix msg ∈ [c.db.newRow env.unix msg] ∧
            copyFor v frame' cid ∈ (c.hearers c.clients.lock code).map (copyFor v frame) :=
        ⟨cid', frame, hwho, congrArg some same, List.mem_singleton_self _, List.mem_map_of_mem hmem⟩
      obtain ⟨f, hf, hpoll | ⟨hmatches, cid', hclient, hcid', hwho⟩⟩ := (hattended code head).1 long cid s hsession hcid
      · exact hcopied (mem_hearers hshort hf (hawaiting f hf) hpoll long.fansOut hcid) (identityOf_of_lookup hsession)
      · refine hcopied ?_ hwho
        simp only [hearers, hf, hmatches, if_true, InFlight.hearers, hlock]
        refine List.mem_append_left _ (List.mem_filter.mpr ⟨by simp [hclient], List.contains_iff_mem.mpr hcid'⟩)
    · rintro who m (hm | ⟨hm, hrow, hreplayable⟩)
      · exact Or.inl hm
      · exact Or.inr ⟨List.mem_singleton.mp hm, hrow, hreplayable⟩
  | @echo f code sender echo b slot head ends accepts client of before lock after copies rows =>
    obtain ⟨-, hmessages, hseq, hclients, hsessions⟩ := before.fields
    rw [hrows rows, hcopies copies]
    refine (((h.quiet before).store hok (fun _ _ => Or.inl) fun cid s hsession hcid hreplayable => Or.inr ?_).quiet
      after).mono ?_ fun _ _ => id
    · have hsession : c.sessions.lookup cid = some s := hsessions ▸ hsession
      have hcid : cid ∈ c.clients.lock.channels := by
        rw [lock, hlock, hlock] at hcid
        exact hcid
      have hcopied {cid' : ClientId} (hother : cid' ≠ sender) (hmem : cid' ∈ c.clients.lock.channels)
          (hwho : c.identityOf cid' = some s.identity) :
          ∃ cid frame', c.identityOf cid = some s.identity ∧
          (b.db.newRow env.unix { echo with origin := f.origin }).frame = some frame' ∧
            b.db.newRow env.unix { echo with origin := f.origin } ∈
            [b.db.newRow env.unix { echo with origin := f.origin }] ∧
            copyFor v frame' cid ∈ (f.hearers c.clients code).map (copyFor v frame) ++
              (c.clients.lock.lock.channels.filter fun cid => some sender != some cid).map (copyFor v echo.frame) := by
        refine ⟨cid', echo.frame, hwho, rfl, List.mem_singleton_self _,
          List.mem_append_right _ (List.mem_map_of_mem (List.mem_filter.mpr ⟨?_, ?_⟩))⟩
        · rw [hlock]
          exact hmem
        · simpa using Ne.symm hother
      by_cases hown : cid = sender
      · subst hown
        obtain ⟨hsend, hkey⟩ := of.isSend
        rcases (hattended code head).2 f cid s slot ends accepts client hkey hsend hsession hcid with horigin |
          ⟨cid', hcid', hother, hwho⟩
        · -- The client sent the message itself.
          have hnot := NodeState.not_replayableTo (m := b.db.newRow env.unix { echo with origin := f.origin })
            (NodeState.newRow_origin.trans horigin)
          rw [hnot] at hreplayable
          cases hreplayable
        · exact hcopied hother hcid' hwho
      · exact hcopied hown hcid (identityOf_of_lookup hsession)
    · rintro who m (hm | ⟨hm, hrow, hreplayable⟩)
      · exact Or.inl hm
      · exact Or.inr ⟨List.mem_singleton.mp hm, hclients ▸ hrow, hreplayable⟩

/-- A GET_MSG replays to its client what it takes. -/
theorem Lap.delivers_of_poll (hs : c.step frontend (.command env cmd) = .ok c₁) (hshort : frontend.length ≤ 1)
    (hborn : ∀ s, c.sessions.lookup cmd.clientId = some s → cmd.clientId < c.clients.nextId)
    (honward : (c.begin frontend).clients.Onward c₁.clients) (hhead : cmd.payload.head? = some 0x0A)
    (halive : cmd.clientId ∈ (c.begin frontend).clients.lock.channels) {m : MessageRow}
    (hwho : c.identityOf cmd.clientId = some who) (hnext : c.nextMissed env cmd.clientId = some (m.id, frame))
    (hframe : m.frame = some frame) : Lap.Delivers ⟨c, frontend, .command env cmd, c₁⟩ who m := by
  obtain ⟨s, hsession, hfirst⟩ := Option.bind_eq_some_iff.mp hnext
  obtain rfl : s.identity = who := Option.some.inj ((identityOf_of_lookup hsession).symm.trans hwho)
  have hout := poll_replays hs hhead halive hsession hfirst
  have hcid : cmd.clientId ∈ c₁.clients.channels := by
    rcases onward_of_short hshort honward with heq | heq
    · rw [heq]
      exact Clients.lock_later.old _ halive (hborn s hsession)
    · rw [heq]
      exact halive
  rw [if_pos hcid] at hout
  exact ⟨cmd.clientId, frame, hwho, hframe, Or.inl (by rw [hout]; exact List.mem_singleton_self _)⟩

theorem Lossless.turn {l : List Deed} (h : Lossless N D c) (hservice : Service l c) (hs : c.step frontend e = .ok c₁)
    (hok : e.DbOk) (hshort : frontend.length ≤ 1) (hspares : Lap.Spares ⟨c, frontend, e, c₁⟩)
    (hattends : Lap.Attends ⟨c, frontend, e, c₁⟩) :
    Lossless (fun who m => N who m ∨ Lap.Incoming ⟨c, frontend, e, c₁⟩ who m) (fun who m =>
      D who m ∨ Lap.Delivers ⟨c, frontend, e, c₁⟩ who m) c₁ := by
  have hdeals := hservice.deals hs
  obtain ⟨_, hreach⟩ := hservice.reachable
  obtain ⟨_, ha⟩ := hservice.accounted
  have hbegin : Lossless N D (c.begin frontend) :=
    ⟨⟨h.ordered.ascending, h.ordered.bounded⟩, h.nonneg, h.bounded, h.here, h.told, h.sorted, h.pending⟩
  have hquiet (hradio : ∀ env frame, e ≠ .radio env frame) (hafter : Lossless N D c₁) : Lossless
      (fun who m => N who m ∨ Lap.Incoming ⟨c, frontend, e, c₁⟩ who m)
      (fun who m => D who m ∨ Lap.Delivers ⟨c, frontend, e, c₁⟩ who m) c₁ := by
    refine hafter.mono (fun who m hm => hm.resolve_right fun hnew => ?_) fun _ _ => Or.inl
    obtain ⟨env, frame, heq⟩ := radio_of_row hreach.told hs hnew.1
    exact hradio env frame heq
  cases e with
  | radio env frame =>
    have ht : Told c.protocolVersion .any (c.begin frontend) := (hreach.told.begin fun _ => True).forget
    refine (hbegin.hear ht rfl ha.awaiting hok hshort (hattends env frame rfl) hs).mono (fun _ _ => id) ?_
    rintro who m (hd | ⟨cid, frame, hwho, hframe, hrow, hcopy⟩)
    · exact Or.inl hd
    · exact Or.inr ⟨cid, frame, hwho, hframe, Or.inr ⟨hrow, hcopy⟩⟩
  | command env cmd =>
    cases hdeals with
    | register _ _ hb hafter => exact hquiet (by simp) (((hbegin.quiet hb).register hok).quiet hafter)
    | poll halive hhead hb hafter =>
      have hreplayed : Lossless N _ (Core.replayNextMissed _ env cmd.clientId).2 := (hbegin.quiet hb).replay hok
      refine (hreplayed.quiet hafter).mono (fun who m hm => hm.resolve_right fun hnew => ?_) ?_
      · obtain ⟨_, _, heq⟩ := radio_of_row hreach.told hs hnew.1
        cases heq
      · rintro who m (hd | ⟨hwho, frame, hnext, hframe⟩)
        · exact Or.inl hd
        · refine Or.inr (Lap.delivers_of_poll hs hshort (hservice.born cmd.clientId) (hservice.deals hs).onward hhead
            halive ?_ ?_ hframe)
          · exact hb.identityOf.symm.trans hwho
          · exact hb.nextMissed.symm.trans hnext
    | serve _ same => exact hquiet (by simp) (hbegin.quiet same)
    | rest _ same => exact hquiet (by simp) (hbegin.quiet same)
  | maintenanceTick env =>
    cases hdeals with
    | purge hb hafter =>
      obtain ⟨-, hmessages, -, hclients, -⟩ := hb.fields
      subst hafter
      refine hquiet (by simp) ((hbegin.quiet hb).maintain (fun m hm => hspares.1 m ?_) fun who hrow => hspares.2 who ?_)
      · exact hmessages ▸ hm
      · exact hclients ▸ hrow
    | rest _ same => exact hquiet (by simp) (hbegin.quiet same)
  | timeoutTick | disconnected | idle =>
    cases hdeals with
    | rest _ same => exact hquiet (by simp) (hbegin.quiet same)

theorem Service.lossless {l : List Deed} (h : Service l c) (hok : ∀ s, .turn s ∈ l → s.event.DbOk)
    (hshort : ∀ s, .turn s ∈ l → s.frontend.length ≤ 1) (hspares : ∀ s, .turn s ∈ l → s.Spares)
    (hattends : ∀ s, .turn s ∈ l → s.Attends) :
    Lossless (fun who m => ∃ s, .turn s ∈ l ∧ s.Incoming who m) (fun who m =>
      ∃ s, .turn s ∈ l ∧ s.Delivers who m) c := by
  induction h with
  | @install config env first attempts c hstart =>
    have hempty : Lossless (fun _ _ => False) (fun _ _ => False) (Core.new config .empty) := by
      refine ⟨⟨List.Pairwise.nil, ?_⟩, le_refl _, ?_, fun _ _ => False.elim, fun _ _ => False.elim,
        fun cid s hs => ?_, fun cid s hs => ?_⟩
      · rintro id ⟨m, hm, -⟩
        cases hm
      · rintro who id ⟨row, hrow, -⟩
        cases hrow
      · cases hs
      · cases hs
    refine (hempty.start hstart).mono ?_ fun _ _ => False.elim
    rintro who m ⟨s, hs, -⟩
    cases List.mem_singleton.mp hs
  | restart hservice hstart ih =>
    have hbefore := ih (fun s hs => hok s (List.mem_append_left _ hs))
      (fun s hs => hshort s (List.mem_append_left _ hs))
      (fun s hs => hspares s (List.mem_append_left _ hs)) fun s hs => hattends s (List.mem_append_left _ hs)
    refine (hbefore.start hstart).mono ?_ ?_
    · rintro who m ⟨s, hs, hnew⟩
      exact ⟨s, (List.mem_append.mp hs).resolve_right (by simp), hnew⟩
    · rintro who m ⟨s, hs, hsent⟩
      exact ⟨s, List.mem_append_left _ hs, hsent⟩
  | @turn l c c₁ frontend e hservice hs ih =>
    have hbefore := ih (fun s hs => hok s (List.mem_append_left _ hs))
      (fun s hs => hshort s (List.mem_append_left _ hs))
      (fun s hs => hspares s (List.mem_append_left _ hs)) fun s hs => hattends s (List.mem_append_left _ hs)
    have hlast : Deed.turn ⟨c, frontend, e, c₁⟩ ∈ l ++ [.turn ⟨c, frontend, e, c₁⟩] :=
      List.mem_append_right _ (List.mem_singleton_self _)
    refine (hbefore.turn hservice hs (hok _ hlast) (hshort _ hlast) (hspares _ hlast) (hattends _ hlast)).mono ?_ ?_
    · rintro who m ⟨s, hs, hnew⟩
      rcases List.mem_append.mp hs with hs | hs
      · exact Or.inl ⟨s, hs, hnew⟩
      · cases List.mem_singleton.mp hs
        exact Or.inr hnew
    · rintro who m (⟨s, hs, hsent⟩ | hsent)
      · exact ⟨s, List.mem_append_left _ hs, hsent⟩
      · exact ⟨_, hlast, hsent⟩

theorem Recalls.refl : Recalls c c := ⟨fun _ => id, fun _ => id⟩

theorem Recalls.trans (h₁ : Recalls c b) (h₂ : Recalls b c₁) : Recalls c c₁ :=
  ⟨fun m hm => h₂.1 m (h₁.1 m hm), fun who hrow => h₂.2 who (h₁.2 who hrow)⟩

theorem Recalls.of_touched {p : Identity → Prop} (hmessages : c₁.db.messages = c.db.messages)
    (h : ∀ who, Touched (p who) env.unix who c c₁) : Recalls c c₁ := by
  refine ⟨fun m hm => hmessages ▸ hm, fun who hrow => ?_⟩
  rcases h who with ⟨-, row, hnew, -⟩ | ⟨-, hsame⟩
  · rw [hnew]
    exact Option.some_ne_none row
  · rw [hsame]
    exact hrow

/-- Only the maintenance forgets messages and clients. -/
theorem Service.spares {l : List Deed} (h : Service l c) (hs : c.step frontend e = .ok c₁)
    (he : ∀ env, e ≠ .maintenanceTick env) : Lap.Spares ⟨c, frontend, e, c₁⟩ := by
  have hquiet {b b₁ : Core} (h : Quiet b b₁) : Recalls b b₁ := by
    obtain ⟨-, hmessages, -, hclients, -⟩ := h.fields
    exact ⟨fun m hm => hmessages ▸ hm, fun who hrow => hclients ▸ hrow⟩
  have hthen {b b₁ : Core} (hb : Quiet (c.begin frontend) b) (h : Recalls b b₁) (hafter : Quiet b₁ c₁) :
      Recalls (c.begin frontend) c₁ :=
    ((hquiet hb).trans h).trans (hquiet hafter)
  show Recalls (c.begin frontend) c₁
  cases h.deals hs with
  | @register env cmd b _ _ _ hb hafter =>
    have htouched (who : Identity) : Touched _ env.unix who b (b.registerSession env cmd) := registerSession_touched
    refine hthen hb (.of_touched ?_ htouched) hafter
    unfold registerSession
    dsimp only
    split <;> rfl
  | @poll env cmd b _ _ _ hb hafter =>
    have htouched (who : Identity) : Touched _ env.unix who b (b.replayNextMissed env cmd.clientId).2 :=
      replayNextMissed_touched
    exact hthen hb (.of_touched (replayNextMissed_fields b env cmd.clientId).2.1 htouched) hafter
  | serve _ same | hear same | rest _ same => exact hquiet same
  | @store env frame msg b _ _ hb hafter =>
    refine hthen hb ?_ hafter
    rcases storeMessage_cases b env msg with ⟨-, heq⟩ | ⟨hok, -, hmessages, -⟩
    · rw [heq]
      exact .refl
    · obtain ⟨rows, hform, hraised, -⟩ := storeMessage_form b msg hok
      refine ⟨fun m hm => hmessages ▸ List.mem_append_left _ hm, fun who hrow => ?_⟩
      rw [hform]
      rcases hraised who with hsame | ⟨now, hnew⟩
      · exact hsame ▸ hrow
      · show rows.lookup who ≠ none
        rw [hnew]
        exact Option.some_ne_none _
  | purge => exact absurd rfl (he _)

theorem Service.spares_of_mem {l : List Deed} {t : Lap} (h : Service l c) (ht : .turn t ∈ l)
    (he : ∀ env, t.event ≠ .maintenanceTick env) :
    t.Spares := by
  obtain ⟨l₁, l₂, rfl⟩ := List.append_of_mem ht
  obtain ⟨hservice, hs⟩ := h.split
  exact hservice.spares hs he

/-- In a run in which each message that is stored is heard by all that are connected, what a client's cursor has
    passed was sent to a connection of it. -/
theorem not_lost {l : List Deed} (h : Service l c) (hok : ∀ s, .turn s ∈ l → s.event.DbOk)
    (hshort : ∀ s, .turn s ∈ l → s.frontend.length ≤ 1) (hspares : ∀ s, .turn s ∈ l → s.Spares)
    (hattends : ∀ s, .turn s ∈ l → s.Attends) {row : ClientRow} (hrow : c.db.clients.lookup who = some row) {t : Lap}
    {m : MessageRow} (ht : .turn t ∈ l) (hincoming : t.Incoming who m) (hpassed : m.id ≤ row.lastSeenId) :
    ∃ s, .turn s ∈ l ∧ s.Delivers who m :=
  (h.lossless hok hshort hspares hattends).told who m ⟨t, ht, hincoming⟩ ⟨row, hrow, hpassed⟩

/-! ### A client that is up to date -/

/-- A proxy on an empty database, whose sync is not sent. -/
def unsynced : Except Panic Core := (Core.new ⟨.off, true, false, ⟨0, 0, 0, 0⟩, .off⟩ .empty).start sound
  ⟨true, [.frame [0x05], .frame [0x0D, 3, 0, 1]], sound, sound, { sound with writerOpen := false }⟩ []

/-- A client says who it is, and asks for a message. -/
def polling : List Turn := [([[.connect]], startOf 1), ([], pollOf 1)]

/-- The proxy is started, makes some turns, and handles a message. -/
theorem polling_service {ts : List Turn} {t : List Lap} {c₀ c₁ c₂ : Core} (hboot : unsynced = .ok c₀)
    (hlaps : c₀.laps ts = .ok (t, c₁)) (hs : c₁.step [] (.radio sound shortMessage) = .ok c₂) :
    ∃ l, Service l c₂ ∧ .turn ⟨c₁, [], .radio sound shortMessage, c₂⟩ ∈ l ∧
      ∀ s, .turn s ∈ l → s ∈ t ∧ (s.frontend, s.event) ∈ ts ∨ s = ⟨c₁, [], .radio sound shortMessage, c₂⟩ := by
  obtain ⟨htrace, hturns⟩ := Trace.of_laps hlaps
  refine ⟨_, ((Service.install hboot).trace htrace).turn hs, List.mem_append_right _ (List.mem_singleton_self _),
    fun s hs => ?_⟩
  rcases List.mem_append.mp hs with hs | hs
  · obtain ⟨v, hv, heq⟩ := List.mem_map.mp ((List.mem_append.mp hs).resolve_left (by simp))
    cases heq
    exact Or.inl ⟨hv, hturns _ hv⟩
  · cases List.mem_singleton.mp hs
    exact Or.inr rfl

/-- Nothing fails or is forgotten there. -/
theorem polling_ok {t : Lap}
    (h : (t.frontend, t.event) ∈ polling ++ [([], .timeoutTick (soundAt 5000)), ([], .radio sound shortMessage)]) :
    t.event.DbOk ∧ t.frontend.length ≤ 1 ∧ ∀ env, t.event ≠ .maintenanceTick env := by
  obtain ⟨before, frontend, e, after⟩ := t
  simp only [polling, List.cons_append, List.nil_append, List.mem_cons, List.not_mem_nil, or_false, Prod.mk.injEq] at h
  rcases h with ⟨rfl, rfl⟩ | ⟨rfl, rfl⟩ | ⟨rfl, rfl⟩ | ⟨rfl, rfl⟩ <;> simp [startOf, pollOf, Event.DbOk, sound, soundAt]

theorem not_lost_polled_run : Except.Holds (do
    let c₀ ← unsynced
    let (t, c₁) ← c₀.laps polling
    let c₂ ← c₁.step [] (.radio sound shortMessage)
    return (c₀, t, c₁, c₂)) fun (_, _, c₁, c₂) => (∃ f ∈ c₁.inFlight, f.cmdCode = 0x0A) ∧
      c₁.db.clients.lookup (5000, [0x61]) ≠ none ∧ ∃ m ∈ storedRows c₂.out,
      NodeState.replayableTo (5000, [0x61]) m = true ∧
      ∃ row ∈ c₂.db.clients.lookup (5000, [0x61]), m.id ≤ row.lastSeenId := by
  decide +kernel

/-- The message answers the GET_MSG of a client that is up to date. -/
theorem not_lost_polled : ∃ l c row t m, Service l c ∧ c.db.clients.lookup (5000, [0x61]) = some row ∧ .turn t ∈ l ∧
    t.Incoming (5000, [0x61]) m ∧ m.id ≤ row.lastSeenId ∧ ∃ s, .turn s ∈ l ∧ s.Delivers (5000, [0x61]) m := by
  obtain ⟨⟨c₀, t, c₁, c₂⟩, hrun, ⟨f, hf, hpoll⟩, hknown, m, hm, hreplayable, row, hrow, hpassed⟩ := not_lost_polled_run
  obtain ⟨_, hboot, hrun⟩ := Except.of_bind_eq_ok hrun
  obtain ⟨⟨_, _⟩, hlaps, hrun⟩ := Except.of_bind_eq_ok hrun
  obtain ⟨_, hstep, hrun⟩ := Except.of_bind_eq_ok hrun
  cases hrun
  obtain ⟨l, hservice, hlast, hcases⟩ := polling_service hboot hlaps hstep
  have hok {s : Lap} (hs : .turn s ∈ l) : s.event.DbOk ∧ s.frontend.length ≤ 1 ∧
      ∀ env, s.event ≠ .maintenanceTick env := by
    rcases hcases s hs with ⟨-, hs⟩ | rfl
    · exact polling_ok (List.mem_append_left _ hs)
    · exact polling_ok (List.mem_append_right _ (by simp))
  have hincoming : Lap.Incoming ⟨c₁, [], .radio sound shortMessage, c₂⟩ (5000, [0x61]) m := ⟨hm, hknown, hreplayable⟩
  refine ⟨l, c₂, row, _, m, hservice, hrow, hlast, hincoming, hpassed, ?_⟩
  refine not_lost hservice (fun s hs => (hok hs).1) (fun s hs => (hok hs).2.1)
    (fun s hs => hservice.spares_of_mem hs (hok hs).2.2) (fun s hs env frame he => ?_) hrow hlast hincoming hpassed
  rcases hcases s hs with ⟨-, hturn⟩ | rfl
  · rw [he] at hturn
    simp [polling, startOf, pollOf] at hturn
  · have hf : c₁.inFlight = some f := hf
    refine fun code hcode => ⟨fun _ cid s _ _ => ⟨f, hf, Or.inl hpoll⟩, fun f' sender s hf' _ _ _ _ hsend => ?_⟩
    -- No message is being sent.
    obtain rfl : f = f' := Option.some.inj (hf.symm.trans hf')
    have hpoll : f.payload.code = 0x0A := hpoll
    rcases hsend with ⟨hsend, -⟩ | ⟨hsend, -⟩ <;> rw [hpoll] at hsend <;> cases hsend

theorem lost_late_run : Except.Holds (do
    let c₀ ← unsynced
    let (t, c₁) ← c₀.laps (polling ++ [([], .timeoutTick (soundAt 5000))])
    let c₂ ← c₁.step [] (.radio sound shortMessage)
    return (c₀, t, c₁, c₂)) fun (_, t, c₁, c₂) => (∀ f ∈ c₁.inFlight, f.cmdCode ≠ 0x0A) ∧
      (c₁.db.clients.lookup (5000, [0x61]) ≠ none ∧ ∃ m ∈ storedRows c₂.out,
        NodeState.replayableTo (5000, [0x61]) m = true ∧
        ∃ row ∈ c₂.db.clients.lookup (5000, [0x61]), m.id ≤ row.lastSeenId) ∧
      (c₂.out.filterMap liveCopy = [] ∧ c₂.out.filterMap replayedId = []) ∧
      ∀ s ∈ t, storedRows s.after.out = [] ∧ s.after.out.filterMap replayedId = [] := by
  decide +kernel

/-- The answer to a GET_MSG that timed out: the cursor of the client passes it, and it is sent to nobody. -/
theorem lost_late : ∃ l c row t m, Service l c ∧ (∀ s, .turn s ∈ l → s.event.DbOk ∧ s.frontend.length ≤ 1 ∧ s.Spares) ∧
    c.db.clients.lookup (5000, [0x61]) = some row ∧ .turn t ∈ l ∧ (∀ f ∈ t.before.inFlight, f.cmdCode ≠ 0x0A) ∧
    t.Incoming (5000, [0x61]) m ∧ m.id ≤ row.lastSeenId ∧ ¬∃ s, .turn s ∈ l ∧ s.Delivers (5000, [0x61]) m := by
  obtain ⟨⟨c₀, t, c₁, c₂⟩, hrun, hnone, ⟨hknown, m, hm, hreplayable, row, hrow, hpassed⟩, ⟨hlive, hreplayed⟩,
      hquiet⟩ := lost_late_run
  obtain ⟨_, hboot, hrun⟩ := Except.of_bind_eq_ok hrun
  obtain ⟨⟨_, _⟩, hlaps, hrun⟩ := Except.of_bind_eq_ok hrun
  obtain ⟨_, hstep, hrun⟩ := Except.of_bind_eq_ok hrun
  cases hrun
  obtain ⟨l, hservice, hlast, hcases⟩ := polling_service hboot hlaps hstep
  have hok {s : Lap} (hs : .turn s ∈ l) : s.event.DbOk ∧ s.frontend.length ≤ 1 ∧
      ∀ env, s.event ≠ .maintenanceTick env := by
    rcases hcases s hs with ⟨-, hs⟩ | rfl
    · exact polling_ok
        (List.mem_append.mpr ((List.mem_append.mp hs).imp_right fun hs =>
          List.mem_cons.mpr (Or.inl (List.mem_singleton.mp hs))))
    · exact polling_ok (List.mem_append_right _ (by simp))
  refine ⟨l, c₂, row, _, m, hservice, fun s hs => ⟨(hok hs).1, (hok hs).2.1, hservice.spares_of_mem hs (hok hs).2.2⟩,
    hrow, hlast, hnone, ⟨hm, hknown, hreplayable⟩, hpassed, ?_⟩
  rintro ⟨s, hs, cid, frame, -, -, hsent⟩
  have hnothing : (storedRows s.after.out = [] ∨ s.after.out.filterMap liveCopy = []) ∧
      s.after.out.filterMap replayedId = [] := by
    rcases hcases s hs with ⟨hs, -⟩ | rfl
    · exact ⟨Or.inl (hquiet s hs).1, (hquiet s hs).2⟩
    · exact ⟨Or.inr hlive, hreplayed⟩
  rcases hsent with hsent | ⟨hrow, hcopy⟩
  · have hmem : m.id ∈ s.after.out.filterMap replayedId := List.mem_filterMap.mpr ⟨_, hsent, rfl⟩
    rw [hnothing.2] at hmem
    cases hmem
  · rcases hnothing.1 with hempty | hempty
    · rw [hempty] at hrow
      cases hrow
    · rw [hempty] at hcopy
      cases hcopy

end
end Core
end CoreSplitter
