import CoreSplitter.Lib.Archive
import CoreSplitter.Theorems.Lossless

/-! The messages over all that the proxy did: they are numbered as they are stored, above all that any client has
    seen, and each stands until a maintenance finds it too old. -/

namespace CoreSplitter
open Bytes

/-- The cursors of the clients are not above a number. -/
def Behind (n : MessageId) (rows : Table Identity ClientRow) : Prop :=
  ∀ who row, rows.lookup who = some row → row.lastSeenId ≤ n

namespace Core

namespace Lap

/-- The messages that the turn stores. -/
def stored (s : Lap) : List MessageRow := s.after.db.messages.filter fun m => decide (s.before.db.messageSeq < m.id)

/-- The turn purges the message: it is older than the maintenance keeps. -/
def Expires (s : Lap) (m : MessageRow) : Prop :=
  ∃ env, s.event = .maintenanceTick env ∧ 0 < s.before.config.retention.messagesDays ∧
  env.dbOk .purgeMessages = true ∧
  m.receivedAt.getD m.timestamp < NodeState.cutoff env.unix s.before.config.retention.messagesDays

instance {s : Lap} {m : MessageRow} : Decidable (s.Expires m) :=
  match h : s.event with
  | .maintenanceTick env =>
    decidable_of_iff (0 < s.before.config.retention.messagesDays ∧ env.dbOk .purgeMessages = true ∧
      m.receivedAt.getD m.timestamp < NodeState.cutoff env.unix s.before.config.retention.messagesDays)
      ⟨fun hold => ⟨env, h, hold⟩, fun ⟨_, he, hold⟩ => Event.maintenanceTick.inj (h.symm.trans he) ▸ hold⟩
  | .command _ _ | .radio _ _ | .timeoutTick _ | .disconnected _ | .idle => isFalse fun ⟨_, he, _⟩ =>
    nomatch h.symm.trans he

/-- What the turn does to the messages. -/
def messagePage (s : Lap) : Page MessageRow := ⟨fun m => !decide (s.Expires m), s.stored⟩

end Lap

namespace Deed

/-- The messages that are stored. -/
def stored : Deed → List MessageRow
  | .boot _ _ _ _ => []
  | .turn s => s.stored

/-- What is done to the messages. -/
def messagePage : Deed → Page MessageRow
  | .boot _ _ _ _ => .blank
  | .turn s => s.messagePage

end Deed

section
variable {l : List Deed} {c c₁ b : Core} {env : Env} {e : Event} {frontend : List (List FrontendOp)} {m : MessageRow}
  {rows rows' : Table Identity ClientRow} {n id : MessageId} {who : Identity}

/-! ### Purges -/

theorem purge_same {α : Type} (π : NodeState → α) {call : DbCall} {g : NodeState → NodeState} {s : NodeState × Bool}
    (hg : ∀ db, π (g db) = π db) : π (purge env call g s).1 = π s.1 := by
  unfold purge
  split
  · exact hg s.1
  · rfl

theorem purgeStale_messages (c : Core) (env : Env) (s : NodeState × Bool) :
    (c.purgeStale env s).1.messages = s.1.messages := by
  have hread : (purge env .readSyncedAt id s).1.messages = s.1.messages := purge_same (·.messages) fun _ => rfl
  unfold purgeStale
  split
  · rename_i syncedAt _
    have hpurge (s : NodeState × Bool) :
        (purge env .purgeContacts (·.purgeContacts
          (NodeState.contactThreshold env.unix c.config.retention.contactsDays syncedAt)) s).1.messages =
        s.1.messages :=
      purge_same (·.messages) fun _ => rfl
    exact (hpurge _).trans hread
  · exact hread

theorem maintain_messages (c : Core) (env : Env) : (c.maintain env).db.messages =
    if 0 < c.config.retention.messagesDays ∧ env.dbOk .purgeMessages = true then
      (c.db.purgeMessages env.unix c.config.retention.messagesDays).messages
    else c.db.messages := by
  let r := c.config.retention
  let s₁ := if r.messagesDays > 0 then purge env .purgeMessages (·.purgeMessages env.unix r.messagesDays) (c.db, true)
    else (c.db, true)
  let s₂ := if r.rawRxDays > 0 then purge env .purgeRawRx (·.purgeRawRx env.unix r.rawRxDays) s₁ else s₁
  let s₃ := if r.contactsDays > 0 then c.purgeStale env s₂ else s₂
  have hclients : (c.maintain env).db.messages = s₃.1.messages :=
    purge_keeps (·.messages) (r.clientsDays > 0) fun _ => rfl
  have hcontacts : s₃.1.messages = s₂.1.messages := by
    dsimp only [s₃]
    split
    · exact purgeStale_messages c env s₂
    · rfl
  have hraw : s₂.1.messages = s₁.1.messages := purge_keeps (·.messages) (r.rawRxDays > 0) fun _ => rfl
  rw [hclients, hcontacts, hraw]
  by_cases hdays : 0 < r.messagesDays
  · by_cases hok : env.dbOk .purgeMessages = true
    · simp [s₁, hdays, hok, purge, r]
    · simp [s₁, hdays, hok, purge, r]
  · simp [s₁, hdays, r]

/-! ### A turn -/

/-- A turn stores one message, as a frame of the radio comes; or it purges what has expired, at most. -/
theorem Service.archives (h : Service l c) (hs : c.step frontend e = .ok c₁) :
    c₁.db.messages = Page.apply c.db.messages (Lap.messagePage ⟨c, frontend, e, c₁⟩) ∧
      (Lap.stored ⟨c, frontend, e, c₁⟩ = [] ∧ c₁.db.messageSeq = c.db.messageSeq ∨
        ∃ env frame msg, e = .radio env frame ∧ Lap.stored ⟨c, frontend, e, c₁⟩ = [c.db.newRow env.unix msg] ∧
          c₁.db.messageSeq = c.db.messageSeq + 1) := by
  have hold (m : MessageRow) (hm : m ∈ c.db.messages) : ¬c.db.messageSeq < m.id :=
    not_lt.mpr (h.foreign.ordered.bounded m.id ⟨m, hm, rfl⟩)
  have hdeals := h.deals hs
  have hkeeps (he : ∀ env, e ≠ .maintenanceTick env) :
      c.db.messages.filter (Lap.messagePage ⟨c, frontend, e, c₁⟩).keeps = c.db.messages :=
    List.filter_eq_self.mpr fun m _ => by
      have hnever : ¬Lap.Expires ⟨c, frontend, e, c₁⟩ m := by
        rintro ⟨env, heq, -⟩
        exact he env heq
      simp [Lap.messagePage, hnever]
  rcases hdeals.messages with ⟨hsub, hseq⟩ | ⟨env, frame, msg, rfl, -, hmessages, hseq⟩
  · have hsub : c₁.db.messages.Sublist c.db.messages := hsub
    have hnone : Lap.stored ⟨c, frontend, e, c₁⟩ = [] :=
      List.filter_eq_nil_iff.mpr fun m hm => by simpa using not_lt.mp (hold m (hsub.subset hm))
    refine ⟨?_, Or.inl ⟨hnone, hseq⟩⟩
    rw [Page.apply, show (Lap.messagePage ⟨c, frontend, e, c₁⟩).added = [] from hnone, List.append_nil]
    by_cases he : ∃ env, e = .maintenanceTick env
    · obtain ⟨env, rfl⟩ := he
      obtain ⟨b, hb, rfl⟩ : ∃ b, Quiet (c.begin frontend) b ∧ c₁ = b.maintain env := by
        cases hdeals with
        | purge hb hafter => exact ⟨_, hb, hafter⟩
        | rest silent => simp at silent
      obtain ⟨hconfig, hmessages, -, -, -⟩ := hb.fields
      have hexpires (m : MessageRow) : Lap.Expires ⟨c, frontend, .maintenanceTick env, b.maintain env⟩ m ↔
          (0 < c.config.retention.messagesDays ∧ env.dbOk .purgeMessages = true) ∧
            m.receivedAt.getD m.timestamp < NodeState.cutoff env.unix c.config.retention.messagesDays := by
        simp [Lap.Expires, and_assoc]
      rw [maintain_messages, NodeState.purgeMessages, show b.config = c.config from hconfig,
        show b.db.messages = c.db.messages from hmessages]
      simp only [Lap.messagePage, hexpires]
      by_cases hpurges : 0 < c.config.retention.messagesDays ∧ env.dbOk .purgeMessages = true
      · simp only [if_pos hpurges, and_iff_right hpurges]
      · rw [if_neg hpurges]
        exact (List.filter_eq_self.mpr fun m _ => by simp only [hpurges, false_and, decide_false, Bool.not_false]).symm
    · have he : ∀ env, e ≠ .maintenanceTick env := fun env heq => he ⟨env, heq⟩
      rw [hkeeps he]
      have hnodup : c.db.messages.Nodup := .of_map _ (h.foreign.ordered.ascending.imp fun hlt => ne_of_lt hlt)
      exact hsub.eq_of_length_le (List.subperm_of_subset hnodup (h.spares hs he).1).length_le
  · have hmessages : c₁.db.messages = c.db.messages ++ [c.db.newRow env.unix msg] := hmessages
    have hone : Lap.stored ⟨c, frontend, .radio env frame, c₁⟩ = [c.db.newRow env.unix msg] := by
      rw [Lap.stored, hmessages, List.filter_append, List.filter_eq_nil_iff.mpr (by simpa using hold)]
      exact List.filter_eq_self.mpr fun m hm => decide_eq_true (List.mem_singleton.mp hm ▸ Int.lt_succ c.db.messageSeq)
    refine ⟨?_, Or.inr ⟨env, frame, msg, rfl, hone, hseq⟩⟩
    rw [Page.apply, hkeeps (fun env heq => by cases heq), show (Lap.messagePage ⟨c, frontend, _, c₁⟩).added =
      _ from hone, hmessages]

/-! ### All turns -/

/-- The messages are what the journal of all turns leaves, and were numbered from 1 on. -/
theorem Service.archived (h : Service l c) : c.db.messages = Page.replay (l.map Deed.messagePage) [] ∧
    c.db.messageSeq = (l.flatMap Deed.stored).length ∧
    (l.flatMap Deed.stored).map (·.id) = (List.range (l.flatMap Deed.stored).length).map fun (i : Nat) =>
    (i : Int) + 1 := by
  induction h with
  | install h =>
    obtain ⟨-, hmessages, hseq, -, -⟩ := (start_quiet h).fields
    exact ⟨hmessages, hseq, rfl⟩
  | @restart l c c₁ config env first attempts _ hstart ih =>
    obtain ⟨-, hmessages, hseq, -, -⟩ := (start_quiet hstart).fields
    rw [List.map_append, List.flatMap_append]
    obtain ⟨hreplay, hcount, hids⟩ := ih
    refine ⟨?_, ?_, ?_⟩
    · rw [List.map_singleton, Page.replay_concat, ← hreplay]
      exact hmessages.trans Page.apply_blank.symm
    · simpa [Deed.stored] using hseq.trans hcount
    · simpa [Deed.stored] using hids
  | @turn l c c₁ frontend e hservice hs ih =>
    obtain ⟨hreplay, hcount, hids⟩ := ih
    obtain ⟨hmessages, hstored⟩ := hservice.archives hs
    rw [List.map_append, List.flatMap_append, List.map_singleton, List.flatMap_singleton, Page.replay_concat, ← hreplay]
    refine ⟨hmessages, ?_⟩
    rcases hstored with ⟨hnone, hseq⟩ | ⟨env, frame, msg, -, hone, hseq⟩
    · rw [show Deed.stored (.turn ⟨c, frontend, e, c₁⟩) = [] from hnone, List.append_nil]
      exact ⟨hseq.trans hcount, hids⟩
    · rw [show Deed.stored (.turn ⟨c, frontend, e, c₁⟩) = _ from hone, List.length_append, List.length_singleton,
        List.range_succ, List.map_append, List.map_append, hids]
      refine ⟨by rw [hseq, hcount]; rfl, ?_⟩
      rw [List.map_singleton, List.map_singleton, ← hcount]
      rfl

/-- What stands in the messages is what was stored and has not expired since, in the order in which it was numbered. -/
theorem message_archive (h : Service l c) :
    (∀ m, m ∈ c.db.messages ↔ ∃ l₁ s l₂, l = l₁ ++ .turn s :: l₂ ∧ m ∈ s.stored ∧ ∀ t, .turn t ∈ l₂ → ¬t.Expires m) ∧
    c.db.messages.Sublist (l.flatMap Deed.stored) ∧
    (l.flatMap Deed.stored).map (·.id) = (List.range c.db.messageSeq.toNat).map fun (i : Nat) => (i : Int) + 1 := by
  obtain ⟨hreplay, hcount, hids⟩ := h.archived
  refine ⟨fun m => ?_, ?_, ?_⟩
  · rw [hreplay, Page.mem_replay]
    constructor
    · intro hm
      obtain ⟨ps₁, p, ps₂, heq, hadded, hkeeps⟩ := hm.resolve_left fun h => List.not_mem_nil h.1
      obtain ⟨l₁, l', rfl, rfl, hlater⟩ := List.map_eq_append_iff.mp heq
      obtain ⟨d, l₂, rfl, rfl, rfl⟩ := List.map_eq_cons_iff.mp hlater
      cases d with
      | boot => exact absurd hadded List.not_mem_nil
      | turn s =>
        refine ⟨l₁, s, l₂, rfl, hadded, fun t ht hexpires => ?_⟩
        have hkept := hkeeps _ (List.mem_map_of_mem ht)
        simp [Deed.messagePage, Lap.messagePage, hexpires] at hkept
    · rintro ⟨l₁, s, l₂, rfl, hstored, hkept⟩
      refine Or.inr ⟨l₁.map Deed.messagePage, s.messagePage, l₂.map Deed.messagePage,
        by simp [Deed.messagePage], hstored, ?_⟩
      intro p hp
      obtain ⟨d, hd, rfl⟩ := List.mem_map.mp hp
      cases d with
      | boot => rfl
      | turn t => simp [Deed.messagePage, Lap.messagePage, hkept t hd]
  · have hsub :
        (Page.replay (l.map Deed.messagePage) []).Sublist ([] ++ (l.map Deed.messagePage).flatMap Page.added) :=
      Page.replay_sublist
    rw [← hreplay, List.nil_append, List.flatMap_map] at hsub
    have hadded (d : Deed) : d.messagePage.added = d.stored := by cases d <;> rfl
    simpa only [hadded] using hsub
  · rw [hids, hcount, Int.toNat_natCast]

/-! ### Cursors -/

theorem behind_raised (h : Behind n rows) (hraised : Raised id rows rows') (hid : id ≤ n) : Behind n rows' := by
  intro who row hrow
  rcases hraised who with hsame | ⟨now, hnew⟩
  · exact h who row (hsame ▸ hrow)
  · rw [hnew] at hrow
    obtain rfl := Option.some.inj hrow
    cases hold : rows.lookup who with
    | none => exact hid
    | some row => exact max_le (h who row hold) hid

theorem registerSession_behind {cmd : ClientCommand} (hf : Foreign c) (hzero : 0 ≤ c.db.messageSeq)
    (h : Behind c.db.messageSeq c.db.clients) :
    Behind c.db.messageSeq (c.registerSession env cmd).db.clients := by
  have hhead : c.db.messageHead ≤ c.db.messageSeq := hf.ordered.messageHead_le hzero
  unfold registerSession
  dsimp only
  split
  · refine behind_raised h (advanceClientCursor_raised c.db env.unix _ _) ?_
    split
    · split
      · exact hhead
      · exact hzero
    · rename_i first rest hmissed
      obtain ⟨m, hm, hid, -⟩ :=
        missedBy_replayable (hmissed ▸ List.mem_cons_self : first ∈
          c.missedBy env (cmd.localPort, appNameOf cmd.payload))
      exact (Int.sub_le_self first (by decide)).trans (hf.ordered.bounded first ⟨m, hm, hid⟩)
  · exact h

theorem replayNextMissed_behind {cid : ClientId} (hf : Foreign c) (hzero : 0 ≤ c.db.messageSeq)
    (h : Behind c.db.messageSeq c.db.clients) :
    Behind c.db.messageSeq (c.replayNextMissed env cid).2.db.clients := by
  have hhead : c.db.messageHead ≤ c.db.messageSeq := hf.ordered.messageHead_le hzero
  unfold replayNextMissed
  split
  · exact h
  · rename_i s hs
    have hreplay : Behind c.db.messageSeq (c.replayPending env cid s s.pending).2.db.clients ∧
        (c.replayPending env cid s s.pending).2.db.messages = c.db.messages := by
      rcases replayPending_cases c env cid s s.pending with ⟨-, heq⟩ | ⟨skipped, id, rest, frame, hpending, -, -, heq⟩
      · rw [heq]
        dsimp only
        split <;> exact ⟨h, rfl⟩
      · obtain ⟨-, hmessages, -, -, hclients⟩ := served_fields c env cid s id frame rest
        rw [heq, hclients]
        refine ⟨?_, hmessages⟩
        have hid : id ≤ c.db.messageSeq := (hf.pending cid s hs id (by simp [hpending])).1
        split
        · exact behind_raised h (advanceClientCursor_raised c.db env.unix _ _) hid
        · exact h
    dsimp only
    split
    · refine behind_raised hreplay.1 (advanceClientCursor_raised _ env.unix _ _) ?_
      rw [NodeState.messageHead, hreplay.2]
      exact hhead
    · exact hreplay.1

theorem Deals.behind (hd : Deals c e c₁) (hf : Foreign c) (hzero : 0 ≤ c.db.messageSeq)
    (h : Behind c.db.messageSeq c.db.clients) : Behind c₁.db.messageSeq c₁.db.clients := by
  have hquiet {b b₁ : Core} (hb : Quiet b b₁) (h : Behind b.db.messageSeq b.db.clients) :
      Behind b₁.db.messageSeq b₁.db.clients := by
    obtain ⟨-, -, hseq, hclients, -⟩ := hb.fields
    rw [hseq, hclients]
    exact h
  have hbefore {b : Core} (env : Env) (hb : Quiet c b) :
      Foreign b ∧ 0 ≤ b.db.messageSeq ∧ Behind b.db.messageSeq b.db.clients := by
    obtain ⟨-, -, hseq, -, -⟩ := hb.fields
    exact ⟨hf.deals (show Deals c (.radio env []) b from .hear hb), hseq ▸ hzero, hquiet hb h⟩
  cases hd with
  | @register env cmd b _ _ _ hb hafter =>
    obtain ⟨hf, hzero, h⟩ := hbefore env hb
    have hseq : (b.registerSession env cmd).db.messageSeq = b.db.messageSeq := by
      unfold registerSession
      dsimp only
      split <;> rfl
    refine hquiet hafter ?_
    rw [hseq]
    exact registerSession_behind hf hzero h
  | @poll env cmd b _ _ _ hb hafter =>
    obtain ⟨hf, hzero, h⟩ := hbefore env hb
    refine hquiet hafter ?_
    rw [(replayNextMissed_fields b env cmd.clientId).2.2.1]
    exact replayNextMissed_behind hf hzero h
  | serve _ same | hear same | rest _ same => exact hquiet same h
  | @store env frame msg b _ _ hb hafter =>
    obtain ⟨hf, hzero, h⟩ := hbefore env hb
    refine hquiet hafter ?_
    cases hok : env.dbOk .insertMessage with
    | false =>
      rw [storeMessage_of_failed hok]
      exact h
    | true =>
      obtain ⟨rows, hform, hraised, -⟩ := storeMessage_form b msg hok
      rw [hform]
      exact behind_raised (fun who row hrow => Int.le_add_one (h who row hrow)) hraised (le_refl _)
  | @purge env b _ hb hafter =>
    obtain ⟨-, -, h⟩ := hbefore env hb
    subst hafter
    have hpurged := maintain_purged b env
    rw [hpurged.seq]
    intro who row hrow
    rcases hpurged.clients who with hsame | ⟨-, hgone, -⟩
    · exact h who row (hsame ▸ hrow)
    · rw [hgone] at hrow
      cases hrow

/-- No client has a cursor above the last message that was stored. -/
theorem Service.behind (h : Service l c) : Behind c.db.messageSeq c.db.clients := by
  induction h with
  | install h =>
    obtain ⟨-, -, -, hclients, -⟩ := (start_quiet h).fields
    intro who row hrow
    rw [hclients] at hrow
    cases hrow
  | restart _ h ih =>
    obtain ⟨-, -, hseq, hclients, -⟩ := (start_quiet h).fields
    rw [hseq, hclients]
    exact ih
  | @turn l c c₁ frontend e hservice hs ih =>
    obtain ⟨-, hcount, -⟩ := hservice.archived
    have hbegin : Foreign (c.begin frontend) :=
      ⟨⟨hservice.foreign.ordered.ascending, hservice.foreign.ordered.bounded⟩, hservice.foreign.pending⟩
    exact (hservice.deals hs).behind hbegin (show 0 ≤ c.db.messageSeq from hcount ▸ Int.natCast_nonneg _) ih

/-- A message that is stored is new to everybody, whatever was purged before: it is above each cursor and all that
    is pending, and no message had its number before. -/
theorem stored_unseen {s : Lap} {l' : List Deed} (h : Service (l ++ .turn s :: l') c) (hm : m ∈ s.stored) :
    (s.stored = [m] ∧ ∃ env frame, s.event = .radio env frame ∧ m.receivedAt = some env.unix) ∧
    (∀ who row, s.before.db.clients.lookup who = some row → row.lastSeenId < m.id) ∧
    (∀ cid t, s.before.sessions.lookup cid = some t → ∀ id ∈ t.pending, id < m.id) ∧
    ∀ m' ∈ l.flatMap Deed.stored, m'.id < m.id := by
  obtain ⟨hservice, hs⟩ := h.split
  have hnew : s.before.db.messageSeq < m.id := of_decide_eq_true (List.mem_filter.mp hm).2
  obtain ⟨-, hcount, hids⟩ := hservice.archived
  refine ⟨?_, fun who row hrow => lt_of_le_of_lt (hservice.behind who row hrow) hnew,
    fun cid t ht id hid => lt_of_le_of_lt (hservice.foreign.pending cid t ht id hid).1 hnew,
    fun m' hm' => lt_of_le_of_lt ?_ hnew⟩
  · rcases (hservice.archives hs).2 with ⟨hnone, -⟩ | ⟨env, frame, msg, he, hone, -⟩
    · exact absurd (hnone ▸ hm : m ∈ []) List.not_mem_nil
    · have hone : s.stored = [s.before.db.newRow env.unix msg] := hone
      obtain rfl := List.mem_singleton.mp (hone ▸ hm)
      exact ⟨hone, env, frame, he, rfl⟩
  · have hid : m'.id ∈ (l.flatMap Deed.stored).map (·.id) := List.mem_map_of_mem hm'
    rw [hids] at hid
    obtain ⟨i, hi, heq⟩ := List.mem_map.mp hid
    rw [hcount, ← heq]
    exact_mod_cast List.mem_range.mp hi

/-! ### A message that expires -/

/-- Messages come in on the first day and on the third, when those older than a day are purged; and then another one. -/
def threeDays : List Turn :=
  [([], .radio (soundOn 0) message), ([], .radio (soundOn 2) message), ([], .maintenanceTick (soundOn 2))]

theorem archive_run : Except.Holds (do
    let c₀ ← (Core.new ⟨.off, true, false, ⟨1, 0, 0, 0⟩, .off⟩ .empty).start sound ⟨true,
        [.frame [0x05], .frame [0x01]], sound, sound, sound⟩ []
    let (t, c₁) ← c₀.laps threeDays
    let c₂ ← c₁.step [[.connect]] (startOf 1)
    let c₃ ← c₂.step [] (.radio (soundOn 2) message)
    return (c₀, t, c₁, c₂, c₃)) fun (_, _, c₁, c₂, c₃) =>
      c₁.db.messages.map (·.id) = [2] ∧ c₁.db.messageSeq = 2 ∧
        (c₂.db.clients.lookup (5000, [0x61])).map (·.lastSeenId) = some 2 ∧
      c₃.db.messages.map (·.id) = [2, 3] ∧ c₂.db.messageSeq = 2 := by
  decide +kernel

/-- The first message has expired, and the second stands. -/
theorem message_archive_expired : ∃ l c m, Service l c ∧ c.db.messages.map (·.id) = [2] ∧
    m ∈ l.flatMap Deed.stored ∧ m.id = 1 ∧ ∃ t, .turn t ∈ l ∧ t.Expires m := by
  obtain ⟨⟨c₀, t, c₁, c₂, c₃⟩, hrun, hids, hseq, -⟩ := archive_run
  obtain ⟨_, hboot, hrun⟩ := Except.of_bind_eq_ok hrun
  obtain ⟨⟨_, _⟩, hlaps, hrun⟩ := Except.of_bind_eq_ok hrun
  obtain ⟨_, _, hrun⟩ := Except.of_bind_eq_ok hrun
  obtain ⟨_, _, hrun⟩ := Except.of_bind_eq_ok hrun
  cases hrun
  obtain ⟨l, hservice⟩ : ∃ l, Service l c₁ := ⟨_, (Service.install hboot).trace (Trace.of_laps hlaps).1⟩
  obtain ⟨hstands, -, hnumbers⟩ := message_archive hservice
  have hfirst : (1 : Int) ∈ (l.flatMap Deed.stored).map (·.id) := by
    rw [hnumbers, hseq]
    decide
  obtain ⟨m, hm, hid⟩ := List.mem_map.mp hfirst
  obtain ⟨d, hd, hstored⟩ := List.mem_flatMap.mp hm
  cases d with
  | boot => exact absurd hstored List.not_mem_nil
  | turn s =>
    obtain ⟨l₁, l₂, rfl⟩ := List.append_of_mem hd
    have hgone : m ∉ c₁.db.messages := by
      intro hmem
      have hmem : m.id ∈ c₁.db.messages.map (·.id) := List.mem_map_of_mem hmem
      rw [hids, hid] at hmem
      exact absurd hmem (by decide)
    by_contra hnever
    refine hgone ((hstands m).mpr ⟨l₁, s, l₂, rfl, hstored, fun t ht hexpires => hnever ?_⟩)
    exact ⟨_, c₁, m, hservice, hids, hm, hid, t, by simp [ht], hexpires⟩

/-- The client has seen the second message, and the third is above it. -/
theorem stored_unseen_third : ∃ l s c m, Service (l ++ [.turn s]) c ∧ m ∈ s.stored ∧ m.id = 3 ∧
    ∃ row, s.before.db.clients.lookup (5000, [0x61]) = some row ∧ row.lastSeenId = 2 ∧ row.lastSeenId < m.id := by
  obtain ⟨⟨c₀, t, c₁, c₂, c₃⟩, hrun, -, -, hcursor, hids, hseq⟩ := archive_run
  obtain ⟨_, hboot, hrun⟩ := Except.of_bind_eq_ok hrun
  obtain ⟨⟨_, _⟩, hlaps, hrun⟩ := Except.of_bind_eq_ok hrun
  obtain ⟨_, h₂, hrun⟩ := Except.of_bind_eq_ok hrun
  obtain ⟨_, h₃, hrun⟩ := Except.of_bind_eq_ok hrun
  cases hrun
  obtain ⟨l, hservice⟩ : ∃ l, Service l c₂ := ⟨_, ((Service.install hboot).trace (Trace.of_laps hlaps).1).turn h₂⟩
  have hthird : (3 : Int) ∈ c₃.db.messages.map (·.id) := by
    rw [hids]
    decide
  obtain ⟨m, hm, hid⟩ := List.mem_map.mp hthird
  obtain ⟨row, hrow, hseen⟩ := Option.map_eq_some_iff.mp hcursor
  have hstored : m ∈ Lap.stored ⟨c₂, [], .radio (soundOn 2) message, c₃⟩ := by
    refine List.mem_filter.mpr ⟨hm, decide_eq_true ?_⟩
    rw [hid, hseq]
    decide
  have hservice' : Service (l ++ .turn ⟨c₂, [], .radio (soundOn 2) message, c₃⟩ :: []) c₃ := hservice.turn h₃
  obtain ⟨-, hcursors, -⟩ := stored_unseen hservice' hstored
  exact ⟨l, _, c₃, m, hservice', hstored, hid, row, hrow, hseen, hcursors _ row hrow⟩

end
end Core
end CoreSplitter
