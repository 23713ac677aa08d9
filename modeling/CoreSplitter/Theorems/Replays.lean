import Mathlib.Data.List.Dedup
import CoreSplitter.Lib.Lists
import CoreSplitter.Theorems.Mail

/-! A message that a client was given is not replayed to it: what is given to clients that are up to date stays behind
    their cursors, and a replay only takes what is ahead of them. -/

namespace CoreSplitter
open Bytes

namespace NodeState

/-- The message is still stored. -/
def Has (db : NodeState) (id : MessageId) : Prop := ∃ m ∈ db.messages, m.id = id

/-- Messages stand in ascending order of id, and none is above the last id that was given out. -/
structure Ordered (db : NodeState) : Prop where
  ascending : (db.messages.map (·.id)).Pairwise (· < ·)
  bounded : ∀ id, db.Has id → id ≤ db.messageSeq

variable {db db' : NodeState} {id : MessageId}

theorem Has.sublist (h : db'.Has id) (hmessages : db'.messages.Sublist db.messages) : db.Has id := by
  obtain ⟨m, hm, rfl⟩ := h
  exact ⟨m, hmessages.subset hm, rfl⟩

theorem Ordered.sublist (h : db.Ordered) (hmessages : db'.messages.Sublist db.messages)
    (hseq : db'.messageSeq = db.messageSeq) : db'.Ordered :=
  ⟨h.ascending.sublist (hmessages.map _), fun id hid => hseq ▸ h.bounded id (hid.sublist hmessages)⟩

theorem Ordered.insert {now : Int} {msg : NewMessage} (h : db.Ordered) : (db.insertMessage now msg).Ordered := by
  constructor
  · have hnew : (db.insertMessage now msg).messages.map (·.id) = db.messages.map (·.id) ++ [db.messageSeq + 1] := by
      simp [insertMessage, newRow]
    rw [hnew, List.pairwise_append]
    refine ⟨h.ascending, List.pairwise_singleton _ _, fun id hid id' hid' => ?_⟩
    obtain ⟨m, hm, rfl⟩ := List.mem_map.mp hid
    rw [List.mem_singleton.mp hid']
    exact Int.lt_add_one_of_le (h.bounded _ ⟨m, hm, rfl⟩)
  · rintro id ⟨m, hm, rfl⟩
    rcases List.mem_append.mp hm with hm | hm
    · exact le_trans (h.bounded _ ⟨m, hm, rfl⟩) (Int.le_add_one (le_refl _))
    · rw [List.mem_singleton.mp hm]
      exact le_refl _

theorem Has.of_insert {now : Int} {msg : NewMessage} (h : (db.insertMessage now msg).Has id)
    (hid : id ≤ db.messageSeq) : db.Has id := by
  obtain ⟨m, hm, rfl⟩ := h
  rcases List.mem_append.mp hm with hm | hm
  · exact ⟨m, hm, rfl⟩
  · rw [List.mem_singleton.mp hm] at hid
    exact absurd hid (not_le.mpr (Int.lt_succ _))

theorem le_messageHead (h : db.Has id) : id ≤ db.messageHead := by
  obtain ⟨m, hm, rfl⟩ := h
  exact (foldl_max_le.mp (le_refl db.messageHead)).2 _ (List.mem_map_of_mem hm)

theorem has_of_messageFrame {frame : Bytes} (h : db.messageFrame id = some frame) : db.Has id := by
  obtain ⟨m, hm, -⟩ := Option.bind_eq_some_iff.mp h
  have hid := List.find?_some hm
  simp only [Bool.and_eq_true, beq_iff_eq] at hid
  exact ⟨m, List.mem_of_find?_eq_some hm, hid.1⟩

end NodeState

namespace Core

/-! ### What a client missed -/

section
variable {c : Core} {env : Env} {who : Identity} {id : MessageId}

/-- What a client missed is stored, oldest first; it is ahead of the client's cursor, or the client is a new one and
    gets a backlog. -/
theorem missedBy_spec (c : Core) (env : Env) (who : Identity) (hdb : c.db.Ordered) :
    (c.missedBy env who).Pairwise (· < ·) ∧
    ∀ id ∈ c.missedBy env who, c.db.Has id ∧ (∀ row, c.db.clients.lookup who = some row → row.lastSeenId < id) ∧
      (c.db.clients.lookup who = none → c.config.newClientBacklog ≠ .off) := by
  have hsorted (p : MessageRow → Bool) : ((c.db.messages.filter p).map (·.id)).Pairwise (· < ·) :=
    hdb.ascending.sublist (List.filter_sublist.map _)
  have hhas (p : MessageRow → Bool) (id : MessageId) (hid : id ∈ (c.db.messages.filter p).map (·.id)) :
      ∃ m ∈ c.db.messages, p m = true ∧ m.id = id := by
    obtain ⟨m, hm, rfl⟩ := List.mem_map.mp hid
    exact ⟨m, (List.mem_filter.mp hm).1, (List.mem_filter.mp hm).2, rfl⟩
  unfold missedBy
  split
  · exact ⟨List.Pairwise.nil, List.forall_mem_nil _⟩
  · split
    · exact ⟨List.Pairwise.nil, List.forall_mem_nil _⟩
    · cases hrow : c.db.clients.lookup who with
      | some row =>
        have hcursor : c.db.clientCursor who = some row.lastSeenId := by rw [NodeState.clientCursor, hrow]; rfl
        simp only [hcursor]
        refine ⟨hsorted _, fun id hid => ?_⟩
        obtain ⟨m, hm, hp, rfl⟩ := hhas _ id hid
        simp only [Bool.and_eq_true, decide_eq_true_eq] at hp
        exact ⟨⟨m, hm, rfl⟩, fun row' heq => Option.some.inj heq ▸ hp.1, nofun⟩
      | none =>
        have hcursor : c.db.clientCursor who = none := by rw [NodeState.clientCursor, hrow]; rfl
        simp only [hcursor]
        unfold NodeState.backlogMessageIds
        split
        · exact ⟨List.Pairwise.nil, List.forall_mem_nil _⟩
        · rename_i n hbacklog
          refine ⟨(hsorted _).sublist (List.drop_sublist _ _), fun id hid => ?_⟩
          obtain ⟨m, hm, -, rfl⟩ := hhas _ id (List.mem_of_mem_drop hid)
          exact ⟨⟨m, hm, rfl⟩, nofun, fun _ => by rw [hbacklog]; nofun⟩
        · rename_i secs hbacklog
          refine ⟨hsorted _, fun id hid => ?_⟩
          obtain ⟨m, hm, -, rfl⟩ := hhas _ id hid
          exact ⟨⟨m, hm, rfl⟩, nofun, fun _ => by rw [hbacklog]; nofun⟩

end

/-! ### What was given stays behind -/

/-- Everything that a client was given is behind its cursor, or the client is forgotten and will get no backlog; and
    what is pending for a client that is connected is ahead of all it was given. `D who id`: the client was given
    the message. -/
structure Settled (D : Identity → MessageId → Prop) (c : Core) : Prop where
  ordered : c.db.Ordered
  known : ∀ who id, D who id → id ≤ c.db.messageSeq
  seen : ∀ who id, D who id → c.db.Has id → Reaches id c.db.clients who ∨
    c.db.clients.lookup who = none ∧ c.config.newClientBacklog = .off
  born : ∀ cid s, c.sessions.lookup cid = some s → cid < c.clients.nextId
  sorted : ∀ cid s, c.sessions.lookup cid = some s → s.pending.Pairwise (· < ·)
  ahead : ∀ cid s, c.sessions.lookup cid = some s → cid ∈ c.clients.channels →
    ∀ id ∈ s.pending, ∀ id', D s.identity id' → c.db.Has id' → id' < id

section
variable {D D' : Identity → MessageId → Prop} {c c₁ b : Core} {env : Env} {cid : ClientId} {s : Session}
  {who : Identity} {id : MessageId}

theorem Quiet.fields (h : Quiet c c₁) : c₁.config = c.config ∧ c₁.db.messages = c.db.messages ∧
    c₁.db.messageSeq = c.db.messageSeq ∧ c₁.db.clients = c.db.clients ∧ c₁.sessions = c.sessions := by
  have hmail := h.mail
  simp only [Core.mail, Prod.mk.injEq] at hmail
  exact hmail

/-- A session that was there before is of a client that was connected before. -/
theorem Settled.here (h : Settled D c) (honward : c.clients.Onward c₁.clients) (hs : c.sessions.lookup cid = some s)
    (hcid : cid ∈ c₁.clients.channels) : cid ∈ c.clients.channels :=
  honward.later.old cid hcid (h.born cid s hs)

theorem Settled.quiet (h : Settled D c) (hquiet : Quiet c c₁) : Settled D c₁ := by
  obtain ⟨hconfig, hmessages, hseq, hclients, hsessions⟩ := hquiet.fields
  have hsub : c₁.db.messages.Sublist c.db.messages := hmessages ▸ List.Sublist.refl _
  refine ⟨h.ordered.sublist hsub hseq, fun who id hd => hseq ▸ h.known who id hd, fun who id hd hhas => ?_,
    fun cid s hs => ?_, fun cid s hs => h.sorted cid s (hsessions ▸ hs), fun cid s hs hcid id hid id' hd hhas => ?_⟩
  · rw [hclients, hconfig]
    exact h.seen who id hd (hhas.sublist hsub)
  · exact Nat.lt_of_lt_of_le (h.born cid s (hsessions ▸ hs)) hquiet.onward.later.nextId
  · rw [hsessions] at hs
    exact h.ahead cid s hs (h.here hquiet.onward hs hcid) id hid id' hd (hhas.sublist hsub)

theorem Settled.mono (h : Settled D c) (hsub : ∀ who id, D' who id → D who id) : Settled D' c where
  ordered := h.ordered
  known who id hd := h.known who id (hsub who id hd)
  seen who id hd := h.seen who id (hsub who id hd)
  born := h.born
  sorted := h.sorted
  ahead cid s hs hcid id hid id' hd := h.ahead cid s hs hcid id hid id' (hsub _ _ hd)

/-- Messages are given that are behind the cursors of their clients, and before all that these have pending. -/
theorem Settled.give (h : Settled D c)
    (hgive : ∀ who id, D' who id → D who id ∨ id ≤ c.db.messageSeq ∧ Reaches id c.db.clients who ∧
    ∀ cid s, c.sessions.lookup cid = some s → cid ∈ c.clients.channels → s.identity = who →
    ∀ id' ∈ s.pending, id < id') : Settled D' c where
  ordered := h.ordered
  known who id hd := (hgive who id hd).elim (h.known who id) fun hnew => hnew.1
  seen who id hd hhas := (hgive who id hd).elim (fun hd => h.seen who id hd hhas) fun hnew => Or.inl hnew.2.1
  born := h.born
  sorted := h.sorted
  ahead cid s hs hcid id hid id' hd hhas := by
    rcases hgive s.identity id' hd with hold | ⟨-, -, hnew⟩
    · exact h.ahead cid s hs hcid id hid id' hold hhas
    · exact hnew cid s hs hcid rfl id hid

/-- A cursor moves; where there was none, all that the client was given is behind the new one. -/
theorem Settled.advance (h : Settled D c) {n : MessageId}
    (hnew : c.db.clients.lookup who = none → ∀ id, D who id → c.db.Has id → id ≤ n) :
    Settled D (c.advanceClientCursor env who n) := by
  refine ⟨⟨h.ordered.ascending, h.ordered.bounded⟩, h.known, fun who' id hd hhas => ?_, h.born, h.sorted, h.ahead⟩
  have hraised : Raised n c.db.clients (c.advanceClientCursor env who n).db.clients :=
    advanceClientCursor_raised c.db env.unix who n
  have hhas : c.db.Has id := hhas
  rcases h.seen who' id hd hhas with hreaches | ⟨hnone, hoff⟩
  · exact Or.inl (hreaches.raised hraised)
  · by_cases heq : who' = who
    · subst heq
      refine Or.inl ⟨⟨n, env.unix⟩, ?_, hnew hnone id hd hhas⟩
      simp only [advanceClientCursor, NodeState.advanceClientCursor, Table.lookup_insert_eq, if_true, hnone,
        NodeState.advancedRow]
    · refine Or.inr ⟨?_, hoff⟩
      simp only [advanceClientCursor, NodeState.advanceClientCursor, Table.lookup_insert_eq, if_neg heq, hnone]

/-- A session of a connected client is replaced by one with the same identity, or a new one, whose pending list is
    ahead of all that its client was given. -/
theorem Settled.setSession (h : Settled D c) (hborn : cid < c.clients.nextId) (hsorted : s.pending.Pairwise (· < ·))
    (hahead : ∀ id ∈ s.pending, ∀ id', D s.identity id' → c.db.Has id' → id' < id) :
    Settled D { c with sessions := c.sessions.insert cid s } := by
  have hlookup (cid' : ClientId) (s' : Session) (hs' : (c.sessions.insert cid s).lookup cid' = some s') :
      cid' = cid ∧ s' = s ∨ c.sessions.lookup cid' = some s' := by
    rw [Table.lookup_insert_eq] at hs'
    split at hs'
    · exact Or.inl ⟨‹_›, (Option.some.inj hs').symm⟩
    · exact Or.inr hs'
  refine ⟨⟨h.ordered.ascending, h.ordered.bounded⟩, h.known, h.seen, fun cid' s' hs' => ?_, fun cid' s' hs' => ?_,
    fun cid' s' hs' hcid' => ?_⟩
  · rcases hlookup cid' s' hs' with ⟨rfl, rfl⟩ | hs'
    · exact hborn
    · exact h.born cid' s' hs'
  · rcases hlookup cid' s' hs' with ⟨rfl, rfl⟩ | hs'
    · exact hsorted
    · exact h.sorted cid' s' hs'
  · rcases hlookup cid' s' hs' with ⟨rfl, rfl⟩ | hs'
    · exact hahead
    · exact h.ahead cid' s' hs' hcid'

/-! ### Operations -/

theorem Settled.register {cmd : ClientCommand} (h : Settled D c) (hok : ∀ call, env.dbOk call = true)
    (hborn : cmd.clientId < c.clients.nextId) : Settled D (c.registerSession env cmd) := by
  obtain ⟨hsorted, hmissed⟩ := missedBy_spec c env (cmd.localPort, appNameOf cmd.payload) h.ordered
  unfold registerSession
  simp only [hok, if_true]
  refine Settled.setSession (h.advance fun hnone id hd hhas => ?_) hborn hsorted fun id hid id' hd hhas => ?_
  -- Whoever has no row was given nothing that is still stored, or gets no backlog.
  · rcases h.seen _ id hd hhas with ⟨row, hrow, -⟩ | ⟨-, hoff⟩
    · rw [hnone] at hrow
      cases hrow
    · split
      · exact NodeState.le_messageHead hhas
      · rename_i first rest hpending
        exact absurd hoff ((hmissed first (hpending ▸ List.mem_cons_self)).2.2 hnone)
  · obtain ⟨-, hahead, hbacklog⟩ := hmissed id hid
    rcases h.seen _ id' hd hhas with ⟨row, hrow, hle⟩ | ⟨hnone, hoff⟩
    · exact lt_of_le_of_lt hle (hahead row hrow)
    · exact absurd hoff (hbacklog hnone)

/-- A message is stored, and the clients that are caught up follow it. -/
theorem Settled.store (h : Settled D b) (msg : NewMessage) (hok : ∀ call, env.dbOk call = true) :
    Settled D (b.storeMessage env msg) ∧ (b.storeMessage env msg).db.messageSeq = b.db.messageSeq + 1 ∧
      (∀ cid s, (b.storeMessage env msg).sessions.lookup cid = some s → b.sessions.lookup cid = some s) ∧
      ∀ cid s, b.sessions.lookup cid = some s → s.pending = [] → cid ∈ b.clients.lock.channels →
        Reaches (b.db.messageSeq + 1) (b.storeMessage env msg).db.clients s.identity := by
  obtain ⟨rows, hform, hraised, hreaches⟩ := storeMessage_form b msg (hok _)
  rw [hform]
  have hsessions (cid : ClientId) (s : Session) : b.dropGoneSessions.sessions.lookup cid = some s →
      b.sessions.lookup cid = some s := fun hs => (Table.lookup_retain_eq_some.mp hs).1
  have hhas {id : MessageId} (hid : id ≤ b.db.messageSeq) (hnew : (b.db.insertMessage env.unix msg).Has id) :
      b.db.Has id :=
    hnew.of_insert hid
  refine ⟨⟨h.ordered.insert.sublist (List.Sublist.refl _) rfl, fun who id hd => ?_, fun who id hd hnew => ?_,
    fun cid s hs => ?_, fun cid s hs => h.sorted cid s (hsessions cid s hs), fun cid s hs hcid id hid id' hd hnew =>
    ?_⟩, rfl, hsessions, fun cid s hs hnone hcid => ?_⟩
  · exact le_trans (h.known who id hd) (Int.le_add_one (le_refl _))
  · rcases h.seen who id hd (hhas (h.known who id hd) hnew) with hold | ⟨hnone, hoff⟩
    · exact Or.inl (hold.raised hraised)
    · rcases hraised who with hsame | ⟨now, hrow⟩
      · exact Or.inr ⟨hsame.trans hnone, hoff⟩
      · rw [hnone] at hrow
        exact Or.inl ⟨_, hrow, le_trans (h.known who id hd) (Int.le_add_one (le_refl _))⟩
  · exact Nat.lt_of_lt_of_le (h.born cid s (hsessions cid s hs)) Clients.lock_later.nextId
  · have hs := hsessions cid s hs
    have hcid : cid ∈ b.clients.channels :=
      h.here Clients.lock_onward hs (show cid ∈ b.lockClients.clients.channels from hcid)
    exact h.ahead cid s hs hcid id hid id' hd (hhas (h.known _ id' hd) hnew)
  · refine hreaches s.identity ?_ (hok _)
    refine List.mem_dedup.mpr (List.mem_map.mpr ⟨(cid, s), List.mem_filter.mpr ⟨?_, by simp [hnone]⟩, rfl⟩)
    exact Table.mem_rows.mpr (Table.lookup_retain_eq_some.mpr ⟨hs, List.contains_iff_mem.mpr hcid⟩)

/-- Two connections do not share an identity. -/
def Single (c : Core) : Prop := ∀ cid ∈ c.clients.channels, ∀ cid' ∈ c.clients.channels, ∀ who,
  c.identityOf cid = some who → c.identityOf cid' = some who → cid = cid'

instance {c : Core} : Decidable (Single c) :=
  decidable_of_iff (∀ cid ∈ c.clients.channels, ∀ cid' ∈ c.clients.channels, c.identityOf cid ≠ none →
    c.identityOf cid = c.identityOf cid' → cid = cid')
    ⟨fun h cid hcid cid' hcid' who hwho hwho' => h cid hcid cid' hcid' (by rw [hwho]; nofun) (hwho.trans hwho'.symm),
      fun h cid hcid cid' hcid' hsome heq => by
        obtain ⟨who, hwho⟩ := Option.ne_none_iff_exists'.mp hsome
        exact h cid hcid cid' hcid' who hwho (heq ▸ hwho)⟩

theorem identityOf_of_lookup (hs : c.sessions.lookup cid = some s) : c.identityOf cid = some s.identity := by
  rw [identityOf, hs]
  rfl

/-- A message is stored and given to clients that have nothing pending and follow it. -/
theorem Settled.deliver {msg : NewMessage} {who' : Identity → Prop} (h : Settled D c) (hsingle : Single c)
    (hb : Quiet c b) (hafter : Quiet (b.storeMessage env msg) c₁) (hok : ∀ call, env.dbOk call = true)
    (hgiven : ∀ who, who' who → ∃ cid s, c.sessions.lookup cid = some s ∧ s.identity = who ∧ s.pending = [] ∧
      cid ∈ b.clients.lock.channels) : Settled (fun who id => D who id ∨ id = c.db.messageSeq + 1 ∧ who' who) c₁ := by
  obtain ⟨-, -, hseq, -, hsessions⟩ := hb.fields
  obtain ⟨hstored, hseq', hretained, hfollow⟩ := (h.quiet hb).store msg hok
  have hafter' := hstored.quiet hafter
  obtain ⟨-, -, hseq₁, hclients₁, hsessions₁⟩ := hafter.fields
  have honward : c.clients.Onward (b.storeMessage env msg).clients := by
    obtain ⟨rows, hform, -⟩ := storeMessage_form b msg (hok _)
    rw [hform]
    exact hb.onward.trans Clients.lock_onward
  refine hafter'.give ?_
  rintro who id (hd | ⟨rfl, hwho⟩)
  · exact Or.inl hd
  · obtain ⟨cid, s, hs, rfl, hnone, hcid⟩ := hgiven who hwho
    have hcid₀ : cid ∈ c.clients.channels := h.here (hb.onward.trans Clients.lock_onward) hs
      (show cid ∈ b.lockClients.clients.channels from hcid)
    refine Or.inr ⟨?_, ?_, fun cid' s' hs' hcid' hsame => ?_⟩
    · rw [hseq₁, hseq', hseq]
    · rw [hclients₁, ← hseq]
      exact hfollow cid s (hsessions ▸ hs) hnone hcid
    · rw [hsessions₁] at hs'
      have hs' : c.sessions.lookup cid' = some s' := hsessions ▸ hretained cid' s' hs'
      have hcid' : cid' ∈ c.clients.channels := h.here (honward.trans hafter.onward) hs' hcid'
      obtain rfl : cid' = cid := hsingle cid' hcid' cid hcid₀ s.identity (hsame ▸ identityOf_of_lookup hs')
        (identityOf_of_lookup hs)
      rw [hs] at hs'
      obtain rfl := Option.some.inj hs'
      rw [hnone]
      exact List.forall_mem_nil _

/-- The maintenance forgets messages and clients; who is forgotten gets no backlog. -/
theorem Settled.maintain (h : Settled D c)
    (hkept : c.config.newClientBacklog = .off ∨ c.config.retention.clientsDays = 0 ∨
    ∀ who row, c.db.clients.lookup who = some row →
    NodeState.cutoff env.unix c.config.retention.clientsDays ≤ row.lastConnectedAt) :
    Settled D (c.maintain env) := by
  have hpurged := maintain_purged c env
  refine ⟨h.ordered.sublist hpurged.messages hpurged.seq, fun who id hd => ?_, fun who id hd hhas => ?_,
    h.born, h.sorted, fun cid s hs hcid id hid id' hd hhas =>
    h.ahead cid s hs hcid id hid id' hd (hhas.sublist hpurged.messages)⟩
  · rw [hpurged.seq]
    exact h.known who id hd
  · rcases hpurged.clients who with hsame | ⟨hdays, hgone, row, hrow, hold⟩
    · rw [Reaches, hsame]
      exact h.seen who id hd (hhas.sublist hpurged.messages)
    · rcases hkept with hoff | hzero | hrecent
      · exact Or.inr ⟨hgone, hoff⟩
      · exact absurd hdays (by rw [hzero]; decide)
      · exact absurd (hrecent who row hrow) (not_le.mpr hold)

/-! ### Replays -/

theorem Settled.head (h : Settled D c) : Settled D (c.advanceClientCursor env who c.db.messageHead) :=
  h.advance fun _ _ _ hhas => NodeState.le_messageHead hhas

/-- What is replayed is ahead of all that the client was given; then it is behind its cursor, like the rest. -/
theorem Settled.replayPending (h : Settled D c) (hsingle : Single c) (hok : ∀ call, env.dbOk call = true)
    (hcid : cid ∈ c.clients.channels) {pending : List MessageId}
    (hs : c.sessions.lookup cid = some { s with pending := pending }) :
    Settled (fun who id => D who id ∨ who = s.identity ∧ ∃ frame, c.firstFrame env pending = some (id, frame))
      (c.replayPending env cid s pending).2 := by
  induction pending generalizing c with
  | nil => exact h.mono fun who id hd => hd.resolve_right fun hnew => by obtain ⟨-, _, hframe⟩ := hnew; cases hframe
  | cons id rest ih =>
    have hsorted := List.pairwise_cons.mp (h.sorted cid _ hs)
    have hahead := h.ahead cid _ hs hcid
    have hpop : Settled D (c.setPending cid s rest) := by
      refine h.setSession (h.born cid _ hs) hsorted.2 fun id' hid' id'' hd hhas => ?_
      exact hahead id' (List.mem_cons_of_mem _ hid') id'' hd hhas
    have hlookup : (c.setPending cid s rest).sessions.lookup cid = some { s with pending := rest } := by
      rw [setPending, Table.lookup_insert_eq, if_pos rfl]
    have hsame (cid' : ClientId) : (c.setPending cid s rest).identityOf cid' = c.identityOf cid' := by
      simp only [identityOf, setPending, Table.lookup_insert_eq]
      split
      · rename_i heq
        rw [heq, hs]
        rfl
      · rfl
    have hsingle' : Single (c.setPending cid s rest) := fun cid₁ h₁ cid₂ h₂ who hw₁ hw₂ =>
      hsingle cid₁ h₁ cid₂ h₂ who (hsame cid₁ ▸ hw₁) (hsame cid₂ ▸ hw₂)
    have hok' : env.dbOk (.replayFrame id) = true := hok _
    cases hframe : c.db.messageFrame id with
    | none =>
      have hskip : c.firstFrame env (id :: rest) = (c.setPending cid s rest).firstFrame env rest :=
        List.findSome?_cons_of_isNone (by simp [hok', hframe])
      have hframe' : (c.setPending cid s rest).db.messageFrame id = none := hframe
      simp only [Core.replayPending, hok', if_true, hframe', hskip]
      exact ih hpop hsingle' hcid hlookup
    | some frame =>
      have hfirst : c.firstFrame env (id :: rest) = some (id, frame) := by simp [firstFrame, hok', hframe]
      have hframe' : (c.setPending cid s rest).db.messageFrame id = some frame := hframe
      have hadvance : env.dbOk .replayAdvance = true := hok _
      simp only [Core.replayPending, hok', if_true, hframe', hfirst, hadvance]
      have hsent : Quiet (c.setPending cid s rest) ((c.setPending cid s rest).sendToClient cid frame (.replay id)) :=
        sendToClient_talks.quiet
      obtain ⟨-, hmessages, hseq, hclients, hsessions⟩ := hsent.fields
      have hhas : c.db.Has id := NodeState.has_of_messageFrame hframe
      refine Settled.give ((hpop.quiet hsent).advance fun _ id' hd hhas' => ?_) fun who id' hd => ?_
      · have hhas' : c.db.Has id' := hhas'.sublist (hmessages ▸ List.Sublist.refl _)
        exact le_of_lt (hahead id List.mem_cons_self id' hd hhas')
      · rcases hd with hd | ⟨rfl, _, heq⟩
        · exact Or.inl hd
        · obtain ⟨rfl, -⟩ := Prod.mk.inj (Option.some.inj heq)
          refine Or.inr ⟨hseq ▸ h.ordered.bounded id hhas, advanceClientCursor_reaches _ _ _ _,
            fun cid' s' hs' hcid' hwho => ?_⟩
          have hs' : (c.setPending cid s rest).sessions.lookup cid' = some s' := hsessions ▸ hs'
          have hcid' : cid' ∈ (c.setPending cid s rest).clients.channels := hpop.here hsent.onward hs' hcid'
          have hidentity : (c.setPending cid s rest).identityOf cid = some s.identity :=
            identityOf_of_lookup (s := { s with pending := rest }) hlookup
          obtain rfl : cid' = cid := hsingle' cid' hcid' cid hcid s.identity (hwho ▸ identityOf_of_lookup hs') hidentity
          rw [hlookup] at hs'
          obtain rfl := Option.some.inj hs'
          exact hsorted.1

theorem Settled.replay (h : Settled D c) (hsingle : Single c) (hok : ∀ call, env.dbOk call = true)
    (hcid : cid ∈ c.clients.channels) :
    Settled (fun who id => D who id ∨ c.identityOf cid = some who ∧ ∃ frame, c.nextMissed env cid = some (id, frame))
      (c.replayNextMissed env cid).2 ∧
    ∀ who id frame, c.identityOf cid = some who → c.nextMissed env cid = some (id, frame) → ¬D who id := by
  unfold replayNextMissed nextMissed
  cases hs : c.sessions.lookup cid with
  | none =>
    have hnone : c.identityOf cid = none := by rw [identityOf, hs]; rfl
    refine ⟨h.mono fun who id hd => hd.resolve_right fun hnew => ?_, fun _ _ _ hwho => ?_⟩
    · rw [hnone] at hnew
      cases hnew.1
    · rw [hnone] at hwho
      cases hwho
  | some s =>
    have hidentity := identityOf_of_lookup hs
    have hreplayed : Settled (fun who id => D who id ∨ c.identityOf cid = some who ∧
        ∃ frame, c.firstFrame env s.pending = some (id, frame)) (c.replayPending env cid s s.pending).2 :=
      (h.replayPending hsingle hok hcid hs).mono fun who id hd =>
        hd.imp_right fun hnew => ⟨(Option.some.inj (hidentity.symm.trans hnew.1)).symm, hnew.2⟩
    refine ⟨?_, fun who id frame hwho hnext hd => ?_⟩
    · dsimp only [Option.bind_some]
      split
      · exact hreplayed.head
      · exact hreplayed
    · obtain rfl := Option.some.inj (hidentity.symm.trans hwho)
      obtain ⟨hframe, hmem⟩ := firstFrame_stored hnext
      exact lt_irrefl _ (h.ahead cid s hs hcid id hmem id hd (NodeState.has_of_messageFrame hframe))

/-! ### Commands -/

theorem Settled.single (h : Settled D c) (hsingle : Single c) (hquiet : Quiet c c₁) : Single c₁ := by
  obtain ⟨-, -, -, -, hsessions⟩ := hquiet.fields
  have hsame (cid : ClientId) : c₁.identityOf cid = c.identityOf cid := by rw [identityOf, identityOf, hsessions]
  have hhere (cid : ClientId) (who : Identity) (hcid : cid ∈ c₁.clients.channels) (hwho : c.identityOf cid = some who) :
      cid ∈ c.clients.channels := by
    obtain ⟨s, hs, -⟩ := Option.map_eq_some_iff.mp hwho
    exact h.here hquiet.onward hs hcid
  intro cid hcid cid' hcid' who hwho hwho'
  rw [hsame] at hwho hwho'
  exact hsingle cid (hhere cid who hcid hwho) cid' (hhere cid' who hcid' hwho') who hwho hwho'

/-- The command is a GET_MSG that is answered with a message its client missed. -/
structure Replaying (c : Core) (env : Env) (cmd : ClientCommand) (who : Identity) (id : MessageId) : Prop where
  poll : cmd.payload.head? = some 0x0A
  alive : cmd.clientId ∈ c.clients.lock.channels
  identity : c.identityOf cmd.clientId = some who
  missed : ∃ frame, c.nextMissed env cmd.clientId = some (id, frame)

theorem handleClientCommand_settled {cmd : ClientCommand} (h : Settled D c) (hvalid : c.clients.Valid)
    (hsingle : Single c) (hok : ∀ call, env.dbOk call = true) (hs : c.handleClientCommand env cmd = .ok c₁) :
    Settled (fun who id => D who id ∨ c.Replaying env cmd who id) c₁ ∧ ∀ who id, c.Replaying env cmd who id →
    ¬D who id := by
  have hno {c₁ : Core} (h₁ : Settled D c₁) (hno : ∀ who id, ¬c.Replaying env cmd who id) :
      Settled (fun who id => D who id ∨ c.Replaying env cmd who id) c₁ ∧ ∀ who id,
      c.Replaying env cmd who id → ¬D who id :=
    ⟨h₁.mono fun who id hd => hd.resolve_right (hno who id), fun who id hnew => absurd hnew (hno who id)⟩
  unfold handleClientCommand at hs
  split at hs
  · rename_i hempty
    cases hs
    exact hno h fun _ _ hnew => by simpa [hempty] using hnew.poll
  · rename_i hne
    have hlock : Quiet c c.lockClients := lockClients_talks.quiet
    dsimp only [clientIsAlive] at hs
    cases halive : c.lockClients.clients.channels.contains cmd.clientId with
    | false =>
      rw [halive] at hs
      cases hs
      refine hno (h.quiet hlock) fun _ _ hnew => ?_
      have hhere : c.lockClients.clients.channels.contains cmd.clientId = true := List.contains_iff_mem.mpr hnew.alive
      rw [halive] at hhere
      cases hhere
    | true =>
      rw [halive] at hs
      obtain ⟨-, -, hs⟩ := Except.of_bind_eq_ok hs
      cases hs
      have hcid : cmd.clientId ∈ c.lockClients.clients.channels := List.contains_iff_mem.mp halive
      rw [serveCommand_eq]
      unfold serveIdentified
      by_cases hpoll : Command.code ⟨cmd.payload, hne⟩ = 0x0A
      · have hhead := head?_of_code hne hpoll
        have hnot : Command.code ⟨cmd.payload, hne⟩ ≠ 0x01 := by rw [hpoll]; decide
        have hversion : Quiet c.lockClients (c.lockClients.recordVersion (Command.code ⟨cmd.payload, hne⟩) cmd) :=
          recordVersion_quiet
        have hmissed : (c.lockClients.recordVersion (Command.code ⟨cmd.payload, hne⟩) cmd).nextMissed env cmd.clientId =
            c.nextMissed env cmd.clientId := recordVersion_nextMissed
        have hclients : (c.lockClients.recordVersion (Command.code ⟨cmd.payload, hne⟩) cmd).clients =
            c.lockClients.clients := by
          unfold recordVersion
          split
          · split <;> rfl
          · rfl
        rw [if_neg hnot]
        generalize c.lockClients.recordVersion (Command.code ⟨cmd.payload, hne⟩) cmd = c₂ at hversion hmissed hclients
        have hquiet : Quiet c c₂ := hlock.trans hversion
        obtain ⟨-, -, -, -, hsessions⟩ := hquiet.fields
        have hidentity : c₂.identityOf cmd.clientId = c.identityOf cmd.clientId := by
          rw [identityOf, identityOf, hsessions]
        obtain ⟨hreplayed, hfresh⟩ := (h.quiet hquiet).replay (h.single hsingle hquiet) hok (hclients ▸ hcid)
        rw [hidentity, hmissed] at hreplayed hfresh
        have hreplayed :
            Settled (fun who id => D who id ∨ c.Replaying env cmd who id) (c₂.replayNextMissed env cmd.clientId).2 :=
          hreplayed.mono fun who id hd => hd.imp_right fun hnew => ⟨hnew.identity, hnew.missed⟩
        refine ⟨?_, fun who id hnew hd => ?_⟩
        · rw [if_pos hpoll]
          dsimp only
          split
          · exact hreplayed
          · exact hreplayed.quiet serveFromRadio_quiet
        · obtain ⟨frame, hnext⟩ := hnew.missed
          exact hfresh who id frame hnew.identity hnext hd
      · rw [if_neg hpoll]
        have hregistered :
            Settled D (if Command.code ⟨cmd.payload, hne⟩ = 0x01 then c.lockClients.registerSession env cmd
            else c.lockClients) := by
          split
          · exact (h.quiet hlock).register hok ((Clients.lock_valid hvalid).born _ hcid)
          · exact h.quiet hlock
        refine hno ((hregistered.quiet recordVersion_quiet).quiet serveFromRadio_quiet) fun _ _ hnew => hpoll ?_
        have hhead := hnew.poll
        rw [List.head?_eq_some_head hne] at hhead
        exact Option.some.inj hhead

/-! ### Turns -/

/-- A turn replays a message to a connection. -/
def Lap.Replays (s : Lap) (cid : ClientId) (id : MessageId) : Prop :=
  ∃ who version frame, .client cid who version frame (.replay id) ∈ s.after.out

/-- A turn stores a message and sends it to a connection, live. -/
def Lap.Copies (s : Lap) (cid : ClientId) (id : MessageId) : Prop :=
  ∃ row version frame, row ∈ storedRows s.after.out ∧ row.id = id ∧ row.frame = some frame ∧
    (cid, version, messageFrameFor version frame) ∈ s.after.out.filterMap liveCopy

def Lap.Gives (s : Lap) (cid : ClientId) (id : MessageId) : Prop := s.Replays cid id ∨ s.Copies cid id

/-- The client has been identified, and has nothing pending. -/
def CaughtUp (c : Core) (cid : ClientId) : Prop := ∃ s, c.sessions.lookup cid = some s ∧ s.pending = []

/-- All calls to the database succeed. -/
def Event.DbOk : Event → Prop
  | .command env _ | .radio env _ | .timeoutTick env | .maintenanceTick env => ∀ call, env.dbOk call = true
  | .disconnected _ | .idle => True

/-- A frame of the radio gives a message only to clients that are caught up, and an echo only to such as are still
    connected when it is stored. -/
def PromptFrame (c : Core) (frame : Bytes) : Prop :=
  ∀ code, frame.head? = some code →
    (Storable code frame → ∀ cid ∈ c.hearers c.clients.lock code, c.CaughtUp cid) ∧
    ∀ f sender, c.inFlight = some f → f.awaiting.classify code = (true, true) → code ≠ 0x01 → f.clientId = some sender →
      c.radioPubkey ≠ none → f.payload.IsSend → ∀ cid ∈ c.clients.lock.lock.channels, cid ≠ sender →
        c.CaughtUp cid ∧ cid ∈ c.clients.lock.lock.lock.channels

/-- A turn gives messages only to clients that are caught up, and forgets no client that would get a backlog. -/
def Lap.Prompt (s : Lap) : Prop :=
  match s.event with
  | .radio _ frame => (s.before.begin s.frontend).PromptFrame frame
  | .maintenanceTick env => s.before.config.newClientBacklog = .off ∨ s.before.config.retention.clientsDays = 0 ∨
      ∀ who row, s.before.db.clients.lookup who = some row →
        NodeState.cutoff env.unix s.before.config.retention.clientsDays ≤ row.lastConnectedAt
  | _ => True

variable {v : ClientId → UInt8} {frontend : List (List FrontendOp)} {e : Event} {frame : Bytes} {f : InFlight}
  {code : UInt8}

/-- Only a frame of the radio makes the core store a message. -/
theorem radio_of_row (ht : Told v .any c) (hs : c.step frontend e = .ok c₁) {row : MessageRow}
    (hrow : row ∈ storedRows c₁.out) : ∃ env frame, e = .radio env frame := by
  rcases row_accepted ht hs hrow with ⟨env, frame, rfl, -⟩ | ⟨r, how, hended, haccept, -⟩
  · exact ⟨env, frame, rfl⟩
  · obtain ⟨f, hf, -⟩ := ended_accepted ht hs hended haccept
    obtain ⟨env, frame, code, rfl, -⟩ := radio_of_accepts hf
    exact ⟨env, frame, rfl⟩

theorem alive_of_emitted {cmd : ClientCommand} (hs : c.handleClientCommand env cmd = .ok c₁) (hout : c₁.out ≠ c.out) :
    cmd.clientId ∈ c.clients.lock.channels := by
  unfold handleClientCommand at hs
  split at hs
  · cases hs
    exact absurd rfl hout
  · dsimp only [clientIsAlive] at hs
    cases halive : c.lockClients.clients.channels.contains cmd.clientId with
    | false =>
      rw [halive] at hs
      cases hs
      exact absurd rfl hout
    | true => exact List.contains_iff_mem.mp halive

/-- A replay answers a GET_MSG with what its client missed. -/
theorem replay_source (ht : Told v .any c) (hs : c.step frontend e = .ok c₁) {whom : Option Identity} {version : UInt8}
    (hsent : .client cid whom version frame (.replay id) ∈ c₁.out) : ∃ env cmd who, e = .command env cmd ∧
      cmd.clientId = cid ∧ (c.begin frontend).Replaying env cmd who id := by
  have htells := (step_tells (I := fun _ => True) (q := fun cid why payload => ∀ id, why = .replay id → ∃ env cmd,
    e = .command env cmd ∧ cmd.clientId = cid ∧ cmd.payload.head? = some 0x0A ∧
      (c.begin frontend).nextMissed env cid = some (id, payload)) hs ht trivial (fun _ _ _ _ => trivial) ?_).1
  · obtain ⟨-, -, payload, -, hsource⟩ := htells.out _ hsent
    obtain ⟨env, cmd, rfl, rfl, hpoll, hnext⟩ := hsource id rfl
    obtain ⟨s, hlookup, -⟩ := Option.bind_eq_some_iff.mp hnext
    have hwho : c.identityOf cmd.clientId = some s.identity := identityOf_of_lookup (c := c) hlookup
    refine ⟨env, cmd, s.identity, rfl, rfl, hpoll, alive_of_emitted hs fun hout => ?_, hwho, payload, hnext⟩
    rw [hout] at hsent
    cases hsent
  · intro _ _ cid why payload _ hsource
    cases hsource with
    | @replay env' cmd' id' frame henv hcmd hpoll hclient hnext hmissed =>
      intro id heq
      obtain rfl := Why.replay.inj heq
      cases e with
      | command env cmd =>
        have hcmd : cmd' = cmd := hcmd
        subst hcmd
        exact ⟨env, cmd', rfl, hclient, hpoll, hmissed⟩
      | radio | timeoutTick | maintenanceTick | disconnected | idle => exact hcmd.elim
    | _ => nofun

/-- No reply that accepts a message looks like its echo. -/
theorem echo_ne_reply {echo : NewMessage} {version version' : UInt8} (of : c.EchoOf f echo)
    (hcode : frame.head? = some code) (hends : (awaitingFor f.payload).classify code = (true, true))
    (hne : code ≠ 0x01) : messageFrameFor version frame ≠ messageFrameFor version' echo.frame := by
  have hreply : code = 0x06 ∨ code = 0x00 := by
    rcases of.sends with h | h
    · exact Or.inl (by simpa [awaitingFor, show f.payload.code = _ from h, Awaiting.classify, hne] using hends)
    · exact Or.inr (by simpa [awaitingFor, show f.payload.code = _ from h, Awaiting.classify, hne] using hends)
  have hleft : (messageFrameFor version frame).head? = some code := by
    cases frame with
    | nil => cases hcode
    | cons code' rest =>
      obtain rfl := Option.some.inj hcode
      rcases hreply with rfl | rfl <;> rfl
  have hright : ∃ code', (messageFrameFor version' echo.frame).head? = some code' ∧ Scope.fansOut code' := by
    cases of <;> by_cases hversion : version' ≥ 3 <;>
      simp [contactEcho, channelEcho, messageFrameFor, hversion, Scope.fansOut]
  obtain ⟨code', hcode', hmessage⟩ := hright
  intro heq
  rw [heq, hcode'] at hleft
  obtain rfl := Option.some.inj hleft
  rcases hreply with rfl | rfl <;> exact absurd hmessage (by decide)

theorem EchoOf.isSend {echo : NewMessage} (h : c.EchoOf f echo) : f.payload.IsSend ∧ c.radioPubkey ≠ none := by
  cases h with
  | contact hpk hcode hlen => exact ⟨Or.inl ⟨hcode, hlen⟩, by rw [hpk]; nofun⟩
  | channel hpk hcode hlen => exact ⟨Or.inr ⟨hcode, hlen⟩, by rw [hpk]; nofun⟩

theorem connected_of_hears {clients : Clients} (h : cid ∈ f.hearers clients code) :
    ∃ t, Clients.Onward clients t ∧ cid ∈ t.channels := by
  rcases List.mem_append.mp h with h | h
  · exact ⟨clients.lock, Clients.lock_onward, List.contains_iff_mem.mp (List.mem_filter.mp h).2⟩
  · split at h
    · have hmem := (List.mem_filter.mp h).1
      split at hmem
      · exact ⟨clients.lock.lock, Clients.lock_onward.trans Clients.lock_onward, hmem⟩
      · exact ⟨clients.lock, Clients.lock_onward, hmem⟩
    · cases h

theorem connected_of_hearers {clients : Clients} (h : cid ∈ c.hearers clients code) :
    ∃ t, Clients.Onward clients t ∧ cid ∈ t.channels := by
  unfold hearers at h
  split at h
  · split at h
    · exact connected_of_hears h
    · cases h
  · cases h

/-- Who is given what in the turn of a frame was caught up, and follows it. -/
theorem handleRadioRx_settled (h : Settled D c) (ht : Told v .any c) (hout : c.out = [])
    (hawaiting : ∀ f, c.inFlight = some f → f.awaiting = awaitingFor f.payload) (hsingle : Single c)
    (hok : ∀ call, env.dbOk call = true) (hprompt : c.PromptFrame frame) (hs : c.handleRadioRx env frame = .ok c₁) :
    ∃ copied : ClientId → Prop, (∀ cid, copied cid → c.CaughtUp cid) ∧
      Settled (fun who id => D who id ∨ id = c.db.messageSeq + 1 ∧ ∃ cid, copied cid ∧ c.identityOf cid = some who) c₁ ∧
      ∀ row version payload cid, row ∈ storedRows c₁.out → row.frame = some payload →
        (cid, version, messageFrameFor version payload) ∈ c₁.out.filterMap liveCopy →
        row.id = c.db.messageSeq + 1 ∧ copied cid := by
  have hrows {l : List MessageRow} (h : Appends storedRow l c c₁) : storedRows c₁.out = l := by
    rw [storedRows, h, hout]
    rfl
  have hcopies {l : List (ClientId × UInt8 × Bytes)} (h : Appends liveCopy l c c₁) : c₁.out.filterMap liveCopy = l := by
    rw [h, hout]
    rfl
  cases handleRadioRx_mailed ht hs (hok _) hawaiting with
  | nothing quiet rows =>
    refine ⟨fun _ => False, fun _ => False.elim, (h.quiet quiet).mono fun who id hd => hd.resolve_right ?_, ?_⟩
    · rintro ⟨-, cid, hno, -⟩
      exact hno
    · intro row version payload cid hrow
      rw [hrows rows] at hrow
      cases hrow
  | @message code msg head long same origin after copies rows =>
    have hcaught := (hprompt code head).1 long
    refine ⟨(· ∈ c.hearers c.clients.lock code), hcaught, h.deliver hsingle .refl after hok ?_, ?_⟩
    · rintro who ⟨cid, hcid, hwho⟩
      obtain ⟨s, hlookup, hnone⟩ := hcaught cid hcid
      obtain ⟨t, honward, hmem⟩ := connected_of_hearers hcid
      refine ⟨cid, s, hlookup, ?_, hnone, ?_⟩
      · exact Option.some.inj ((identityOf_of_lookup hlookup).symm.trans hwho)
      · exact honward.later.old cid hmem (Nat.lt_of_lt_of_le (h.born cid s hlookup) Clients.lock_later.nextId)
    · intro row version payload cid hrow hframe hcopy
      rw [hrows rows] at hrow
      obtain rfl := List.mem_singleton.mp hrow
      rw [hcopies copies] at hcopy
      obtain ⟨cid', hcid', heq⟩ := List.mem_map.mp hcopy
      exact ⟨rfl, (Prod.mk.inj heq).1 ▸ hcid'⟩
  | @echo f code sender echo b slot head ends accepts client of before lock after copies rows =>
    obtain ⟨hsend, hkey⟩ := of.isSend
    have hprompt := (hprompt code head).2 f sender slot ends accepts client hkey hsend
    refine ⟨fun cid => cid ∈ c.clients.lock.lock.channels ∧ cid ≠ sender, fun cid hcid => (hprompt cid hcid.1 hcid.2).1,
      h.deliver hsingle before after hok ?_, ?_⟩
    · rintro who ⟨cid, hcid, hwho⟩
      obtain ⟨⟨s, hlookup, hnone⟩, hstill⟩ := hprompt cid hcid.1 hcid.2
      refine ⟨cid, s, hlookup, ?_, hnone, lock ▸ hstill⟩
      exact Option.some.inj ((identityOf_of_lookup hlookup).symm.trans hwho)
    · intro row version payload cid hrow hframe hcopy
      rw [hrows rows] at hrow
      obtain rfl := List.mem_singleton.mp hrow
      obtain rfl : echo.frame = payload := Option.some.inj hframe
      obtain ⟨-, -, hseq, -⟩ := before.fields
      refine ⟨by rw [NodeState.newRow, hseq], ?_⟩
      rw [hcopies copies] at hcopy
      rcases List.mem_append.mp hcopy with hcopy | hcopy
      · obtain ⟨cid', -, heq⟩ := List.mem_map.mp hcopy
        have hframes := (Prod.mk.inj (Prod.mk.inj heq).2).2
        exact absurd hframes (echo_ne_reply of head (hawaiting f slot ▸ ends) accepts)
      · obtain ⟨cid', hcid', heq⟩ := List.mem_map.mp hcopy
        obtain ⟨hmem, hother⟩ := List.mem_filter.mp hcid'
        obtain rfl : cid' = cid := (Prod.mk.inj heq).1
        exact ⟨hmem, fun heq => by simp [heq] at hother⟩

/-- A turn between messages hears nothing. -/
theorem scope_deaf (hradio : ∀ env frame, e ≠ .radio env frame) (hcommand : ∀ env cmd, e ≠ .command env cmd) :
    (e.scope c).Deaf := by
  cases e with
  | command env cmd => exact absurd rfl (hcommand env cmd)
  | radio env frame => exact absurd rfl (hradio env frame)
  | timeoutTick | maintenanceTick | idle => exact ⟨fun _ h => h, fun _ h => h, fun _ _ h => h.elim⟩
  | disconnected attempts =>
    refine ⟨fun _ h => h, fun _ h => h, fun frame code hframe hcode hmessage => ?_⟩
    rcases hframe.2 with h | h <;> rw [h] at hcode <;> obtain rfl := Option.some.inj hcode <;>
      exact absurd hmessage (by decide)

theorem Settled.begin (h : Settled D c) : Settled D (c.begin frontend) :=
  ⟨⟨h.ordered.ascending, h.ordered.bounded⟩, h.known, h.seen, h.born, h.sorted, h.ahead⟩

/-- After a turn what it gave is behind the cursors too; what it replays was not given before, and what it sends live
    goes to clients that have been identified. -/
def Lap.Settles (s : Lap) : Prop := ∀ D, Settled D s.before →
  Settled (fun who id => D who id ∨ ∃ cid, s.Gives cid id ∧ s.before.identityOf cid = some who) s.after ∧
  (∀ cid id who, s.Replays cid id → s.before.identityOf cid = some who → ¬D who id) ∧
  ∀ cid id, s.Gives cid id → s.before.identityOf cid ≠ none

theorem lap_settles {s : Lap} (ht : Told v .any s.before)
    (hawaiting : ∀ f, s.before.inFlight = some f → f.awaiting = awaitingFor f.payload)
    (hs : s.before.step s.frontend s.event = .ok s.after) (hok : s.event.DbOk) (hsingle : Single s.before)
    (hprompt : s.Prompt) :
    s.Settles := by
  intro D h
  obtain ⟨before, frontend, e, after⟩ := s
  have hreplays {cid : ClientId} {id : MessageId} (hgive : Lap.Replays ⟨before, frontend, e, after⟩ cid id) :
      ∃ env cmd who, e = .command env cmd ∧ cmd.clientId = cid ∧ (before.begin frontend).Replaying env cmd who id := by
    obtain ⟨who, version, frame, hsent⟩ := hgive
    exact replay_source ht hs hsent
  have hcopies {cid : ClientId} {id : MessageId} (hgive : Lap.Copies ⟨before, frontend, e, after⟩ cid id) :
      ∃ env frame, e = .radio env frame := by
    obtain ⟨row, version, frame, hrow, -⟩ := hgive
    exact radio_of_row ht hs hrow
  have hbegin : Settled D (before.begin frontend) := h.begin
  have hdeaf (hradio : ∀ env frame, e ≠ .radio env frame) (hcommand : ∀ env cmd, e ≠ .command env cmd)
      (hafter : Settled D after) :
      Settled (fun who id => D who id ∨ ∃ cid, Lap.Gives ⟨before, frontend, e, after⟩ cid id ∧
        before.identityOf cid = some who) after ∧
      (∀ cid id who, Lap.Replays ⟨before, frontend, e, after⟩ cid id → before.identityOf cid = some who → ¬D who id) ∧
      ∀ cid id, Lap.Gives ⟨before, frontend, e, after⟩ cid id → before.identityOf cid ≠ none := by
    have hnone (cid : ClientId) (id : MessageId) : ¬Lap.Gives ⟨before, frontend, e, after⟩ cid id := by
      rintro (hgive | hgive)
      · obtain ⟨env, cmd, -, heq, -⟩ := hreplays hgive
        exact hcommand env cmd heq
      · obtain ⟨env, frame, heq⟩ := hcopies hgive
        exact hradio env frame heq
    refine ⟨hafter.mono fun who id hd => hd.resolve_right ?_,
      fun cid id _ hgive => absurd (Or.inl hgive) (hnone cid id), fun cid id hgive => absurd hgive (hnone cid id)⟩
    rintro ⟨cid, hgive, -⟩
    exact hnone cid id hgive
  cases e with
  | command env cmd =>
    obtain ⟨hafter, hfresh⟩ := handleClientCommand_settled hbegin (c := before.begin frontend)
      ⟨ht.valid.born, ht.valid.nodup⟩ hsingle hok hs
    have hgives (cid : ClientId) (id : MessageId)
        (hgive : Lap.Gives ⟨before, frontend, .command env cmd, after⟩ cid id) :
        ∃ who, before.identityOf cid = some who ∧ (before.begin frontend).Replaying env cmd who id := by
      rcases hgive with hgive | hgive
      · obtain ⟨env', cmd', who, heq, rfl, hnew⟩ := hreplays hgive
        cases heq
        exact ⟨who, hnew.identity, hnew⟩
      · obtain ⟨_, _, heq⟩ := hcopies hgive
        cases heq
    refine ⟨hafter.mono fun who id hd => hd.imp_right ?_, fun cid id who hgive hwho => ?_, fun cid id hgive hnone => ?_⟩
    · rintro ⟨cid, hgive, hwho⟩
      obtain ⟨who', hwho', hnew⟩ := hgives cid id hgive
      obtain rfl := Option.some.inj (hwho.symm.trans hwho')
      exact hnew
    · obtain ⟨who', hwho', hnew⟩ := hgives cid id (Or.inl hgive)
      obtain rfl := Option.some.inj (hwho.symm.trans hwho')
      exact hfresh who id hnew
    · obtain ⟨who, hwho, -⟩ := hgives cid id hgive
      rw [hnone] at hwho
      cases hwho
  | radio env frame =>
    have ht' : Told v .any (before.begin frontend) := (ht.begin fun _ => True).forget
    obtain ⟨copied, hcaught, hafter, hcopy⟩ :=
      handleRadioRx_settled hbegin ht' rfl hawaiting hsingle hok hprompt hs
    have hgives (cid : ClientId) (id : MessageId)
        (hgive : Lap.Gives ⟨before, frontend, .radio env frame, after⟩ cid id) :
        id = before.db.messageSeq + 1 ∧ copied cid := by
      rcases hgive with hgive | ⟨row, version, payload, hrow, rfl, hframe, hsent⟩
      · obtain ⟨_, _, _, heq, -⟩ := hreplays hgive
        cases heq
      · exact hcopy row version payload cid hrow hframe hsent
    refine ⟨hafter.mono fun who id hd => hd.imp_right ?_, fun cid id who hgive hwho => ?_, fun cid id hgive hnone => ?_⟩
    · rintro ⟨cid, hgive, hwho⟩
      obtain ⟨hid, hcid⟩ := hgives cid id hgive
      exact ⟨hid, cid, hcid, hwho⟩
    · obtain ⟨_, _, _, heq, -⟩ := hreplays hgive
      cases heq
    · obtain ⟨-, hcid⟩ := hgives cid id hgive
      obtain ⟨s, hlookup, -⟩ := hcaught cid hcid
      have hsome : before.identityOf cid = some s.identity := identityOf_of_lookup (c := before) hlookup
      rw [hnone] at hsome
      cases hsome
  | timeoutTick | disconnected | idle =>
    refine hdeaf nofun nofun ?_
    exact (handle_writes hs).deaf (scope_deaf nofun nofun) hbegin (fun _ _ hquiet h => h.quiet hquiet) fun h => h.elim
  | maintenanceTick env =>
    refine hdeaf nofun nofun ?_
    have hall := (handle_writes hs).deaf (P := fun c => Settled D c ∧ (c.config.newClientBacklog = .off ∨
      c.config.retention.clientsDays = 0 ∨ ∀ who row, c.db.clients.lookup who = some row →
        NodeState.cutoff env.unix c.config.retention.clientsDays ≤ row.lastConnectedAt))
      (scope_deaf nofun nofun) ⟨hbegin, hprompt⟩ ?_ ?_
    · exact hall.1
    · rintro c c₁ hquiet ⟨h, hkept⟩
      obtain ⟨hconfig, -, -, hclients, -⟩ := hquiet.fields
      exact ⟨h.quiet hquiet, by rw [hconfig, hclients]; exact hkept⟩
    · rintro - c env' rfl ⟨h, hkept⟩
      refine ⟨h.maintain hkept, hkept.imp_right fun hkept => hkept.imp_right fun hkept who row hrow => hkept who row ?_⟩
      rcases (maintain_purged c env').clients who with hsame | ⟨-, hgone, -⟩
      · exact hsame ▸ hrow
      · rw [hgone] at hrow
        cases hrow

/-! ### One replay a turn -/

/-- The messages that a turn replays. -/
def replayedId : Effect → Option MessageId
  | .client _ _ _ _ (.replay id) => some id
  | _ => none

theorem replayPending_once {pending : List MessageId} :
    ∃ l, l.length ≤ 1 ∧ Appends replayedId l c (c.replayPending env cid s pending).2 := by
  induction pending generalizing c with
  | nil => exact ⟨[], Nat.zero_le _, .of_out (List.append_nil _).symm⟩
  | cons id rest ih =>
    simp only [replayPending]
    split
    · exact ih
    · rename_i payload _
      have hsent : ∃ l, l.length ≤ 1 ∧
          Appends replayedId l c ((c.setPending cid s rest).sendToClient cid payload (.replay id)) := by
        unfold sendToClient
        dsimp only
        split
        · exact ⟨[id], le_refl _, List.filterMap_append⟩
        · exact ⟨[], Nat.zero_le _, .of_out (List.append_nil _).symm⟩
      split
      · exact hsent
      · exact hsent

theorem replayNextMissed_once (c : Core) (env : Env) (cid : ClientId) :
    ∃ l, l.length ≤ 1 ∧ Appends replayedId l c (c.replayNextMissed env cid).2 := by
  unfold replayNextMissed
  split
  · exact ⟨[], Nat.zero_le _, .of_out (List.append_nil _).symm⟩
  · dsimp only
    split
    · exact replayPending_once
    · exact replayPending_once

theorem serveFromRadio_no_replay {cmd : ClientCommand} (hne : cmd.payload ≠ []) (ht : Told v .any c)
    (hborn : cmd.clientId < c.clients.nextId) (hcode : cmd.payload.head? = some 0x0A) :
    Appends replayedId [] c (c.serveFromRadio env cmd ⟨cmd.payload, hne⟩) := by
  have hwrites : Writes ⟨(· = env), fun _ => False, (· = cmd), fun _ _ _ => False, fun _ => False, False, False⟩ c
      (c.serveFromRadio env cmd ⟨cmd.payload, hne⟩) := serveFromRadio_writes rfl rfl hne
  have hspeaks := (writes_speak (I := fun _ => True) (q := fun _ why _ => ∀ id, why ≠ .replay id) hwrites ht trivial
    ⟨fun _ _ => trivial, ?_⟩ (fun _ _ _ _ => trivial) ?_).1
  · refine hspeaks.appends_nil fun e he => ?_
    cases e with
    | client cid who version frame why =>
      obtain ⟨-, -, payload, -, hpayload⟩ := he
      cases why with
      | replay id => exact absurd rfl (hpayload id)
      | _ => rfl
    | _ => rfl
  · rintro cmd' rfl
    refine ⟨hborn, fun version hversion => ?_⟩
    rw [hcode] at hversion
    cases hversion
  · intro _ _ cid why payload _ hsource
    cases hsource with
    | replay _ _ _ _ _ hmissed => exact hmissed.elim
    | _ => nofun

/-- A GET_MSG of a connected client is answered with what it missed, or served like any other command. -/
theorem handleClientCommand_poll {cmd : ClientCommand} (hs : c.handleClientCommand env cmd = .ok c₁)
    (hhead : cmd.payload.head? = some 0x0A) (hcid : cmd.clientId ∈ c.clients.lock.channels) : ∃ hne : cmd.payload ≠ [],
      c₁ = if (c.lockClients.replayNextMissed env cmd.clientId).1
      then (c.lockClients.replayNextMissed env cmd.clientId).2
        else (c.lockClients.replayNextMissed env cmd.clientId).2.serveFromRadio env cmd ⟨cmd.payload, hne⟩ := by
  have hne : cmd.payload ≠ [] := fun hempty => by simp [hempty] at hhead
  have halive : c.lockClients.clients.channels.contains cmd.clientId = true := List.contains_iff_mem.mpr hcid
  refine ⟨hne, ?_⟩
  unfold handleClientCommand at hs
  simp only [dif_neg hne, clientIsAlive, halive, Bool.not_true, Bool.false_eq_true, if_false] at hs
  obtain ⟨-, -, hs⟩ := Except.of_bind_eq_ok hs
  cases hs
  have hpoll : Command.code ⟨cmd.payload, hne⟩ = 0x0A := by
    rw [List.head?_eq_some_head hne] at hhead
    exact Option.some.inj hhead
  have hversion : c.lockClients.recordVersion 0x0A cmd = c.lockClients := by
    unfold recordVersion
    split <;> rfl
  rw [serveCommand_eq, hpoll, if_neg (by decide), hversion]
  unfold serveIdentified
  rw [if_pos hpoll]

/-- A turn replays one message at most. -/
theorem step_replays_once (ht : Told v .any c) (hs : c.step frontend e = .ok c₁) :
    (c₁.out.filterMap replayedId).length ≤ 1 := by
  by_cases hnone : c₁.out.filterMap replayedId = []
  · rw [hnone]
    exact Nat.zero_le _
  · obtain ⟨id, hid⟩ := List.exists_mem_of_ne_nil _ hnone
    obtain ⟨x, hx, hreplay⟩ := List.mem_filterMap.mp hid
    obtain ⟨cid, who, version, frame, rfl⟩ :
        ∃ cid who version frame, x = .client cid who version frame (.replay id) := by
      unfold replayedId at hreplay
      split at hreplay
      · obtain rfl := Option.some.inj hreplay
        exact ⟨_, _, _, _, rfl⟩
      · cases hreplay
    obtain ⟨env, cmd, _, rfl, -, hnew⟩ := replay_source ht hs hx
    have hcid : cmd.clientId ∈ (c.begin frontend).lockClients.clients.channels := hnew.alive
    have hlock : Told v .any (c.begin frontend).lockClients := Told.lock ((ht.begin fun _ => True).forget)
    obtain ⟨hne, rfl⟩ := handleClientCommand_poll (c := c.begin frontend) hs hnew.poll hnew.alive
    have hnil : (c.begin frontend).lockClients.out = [] := rfl
    generalize (c.begin frontend).lockClients = c₂ at hlock hcid hnil
    obtain ⟨l, hlen, hreplayed⟩ := replayNextMissed_once c₂ env cmd.clientId
    have hspeaks : Speaks v .any (fun _ _ _ => True) c₂ (c₂.replayNextMissed env cmd.clientId).2 :=
      replayNextMissed_speaks hlock fun _ _ _ => trivial
    split
    · rw [hreplayed, hnil]
      exact hlen
    · have hborn := Nat.lt_of_lt_of_le (hlock.valid.born _ hcid) hspeaks.clients.later.nextId
      rw [serveFromRadio_no_replay hne hspeaks.told hborn hnew.poll, hreplayed, hnil, List.append_nil]
      exact hlen

/-! ### Runs -/

/-- The connection of `who` was given the message; or some connection was, before it was identified as `who`. -/
def Got (l : List Lap) (who : Identity) (id : MessageId) : Prop := ∃ l₁ s l₂ cid, l = l₁ ++ s :: l₂ ∧ s.Gives cid id ∧
  (s.before.identityOf cid = some who ∨ s.before.identityOf cid = none ∧ ∃ s' ∈ l₂, s'.after.identityOf cid = some who)

/-- A turn gives the message to a connection of `who`. -/
def Given (l : List Lap) (who : Identity) (id : MessageId) : Prop :=
  ∃ s ∈ l, ∃ cid, s.Gives cid id ∧ s.before.identityOf cid = some who

variable {l l₁ l₂ : List Lap} {config : Config} {db : NodeState} {first : Attempt} {attempts : List Attempt}
  {c₀ : Core} {s : Lap}

/-- The start of the proxy changes nothing that a replay depends on. -/
theorem start_quiet (hstart : (Core.new config db).start env first attempts = .ok c₀) :
    Quiet (Core.new config db) c₀ := by
  have hdeaf : (startScope env (first :: attempts)).Deaf := by
    refine ⟨fun _ h => h, fun _ h => h, fun frame code hframe hcode hmessage => ?_⟩
    rcases hframe.2 with h | h <;> rw [h] at hcode <;> obtain rfl := Option.some.inj hcode <;>
      exact absurd hmessage (by decide)
  exact (start_writes hstart).deaf (P := Quiet (Core.new config db)) hdeaf .refl (fun _ _ hquiet h => h.trans hquiet)
    fun h => h.elim

theorem start_settled (hdb : db.Ordered) (hstart : (Core.new config db).start env first attempts = .ok c₀) :
    Settled (fun _ _ => False) c₀ := by
  have hnew : Settled (fun _ _ => False) (Core.new config db) :=
    ⟨hdb, fun _ _ => False.elim, fun _ _ => False.elim, nofun, nofun, nofun⟩
  exact hnew.quiet (start_quiet hstart)

/-- What the turns of a run gave is behind the cursors. -/
theorem Trace.settled {D : Identity → MessageId → Prop} (h : Trace c₀ l c) (h₀ : Settled D c₀)
    (hlap : ∀ s ∈ l, s.Settles) :
    Settled (fun who id => D who id ∨ Given l who id) c := by
  induction h generalizing D with
  | nil =>
    refine h₀.mono fun who id hd => hd.resolve_right ?_
    rintro ⟨s, hs, -⟩
    cases hs
  | @cons c c₁ c₂ frontend e l hs _ ih =>
    obtain ⟨hhead, -⟩ := hlap ⟨c, frontend, e, c₁⟩ List.mem_cons_self D h₀
    refine (ih hhead fun s hs => hlap s (List.mem_cons_of_mem _ hs)).mono fun who id hd => ?_
    rcases hd with hd | ⟨s, hs, cid, hgive⟩
    · exact Or.inl (Or.inl hd)
    · rcases List.mem_cons.mp hs with rfl | hs
      · exact Or.inl (Or.inr ⟨cid, hgive⟩)
      · exact Or.inr ⟨s, hs, cid, hgive⟩

/-- A message that was given to a client, live or as a replay, is not replayed to it: in a run whose turns give messages
    only to clients that are caught up, and forget none that would get a backlog. Nor does a turn replay twice. -/
theorem not_replayed_again (hdb : db.Ordered) (hstart : (Core.new config db).start env first attempts = .ok c₀)
    (htrace : Trace c₀ l c) (hok : ∀ s ∈ l, s.event.DbOk) (hsingle : ∀ s ∈ l, Single s.before)
    (hprompt : ∀ s ∈ l, s.Prompt) (hl : l = l₁ ++ s :: l₂) (hreplay : s.Replays cid id)
    (hwho : s.before.identityOf cid = some who) :
    ¬Got l₁ who id ∧ (s.after.out.filterMap replayedId).length ≤ 1 := by
  have hlap : ∀ s ∈ l, s.Settles := fun s hs => by
    obtain ⟨l₁, l₂, rfl⟩ := List.append_of_mem hs
    obtain ⟨hbefore, hstep, -⟩ := htrace.split
    have hreach := hbefore.reachable hstart
    obtain ⟨ha, -⟩ : Accounted False _ s.before ∧ (False → s.before.Idle) :=
      hreach.accounted False.elim fun _ _ _ => False.elim
    exact lap_settles hreach.told ha.awaiting hstep (hok s hs) (hsingle s hs) (hprompt s hs)
  have hsettled {l₁ l₂ : List Lap} {s : Lap} (hl : l = l₁ ++ s :: l₂) :
      Settled (fun who id => False ∨ Given l₁ who id) s.before := by
    subst hl
    exact htrace.split.1.settled (start_settled hdb hstart) fun s hs => hlap s (List.mem_append_left _ hs)
  have hs : s ∈ l := hl ▸ List.mem_append_right _ List.mem_cons_self
  constructor
  · rintro ⟨l₁', s', l₂', cid', rfl, hgive, hwhom⟩
    obtain ⟨-, hfresh, -⟩ := hlap s hs _ (hsettled hl)
    refine hfresh cid id who hreplay hwho (Or.inr ⟨s', List.mem_append_right _ List.mem_cons_self, cid', hgive, ?_⟩)
    -- No message is given to a connection that has not been identified.
    have hs' : l = l₁' ++ s' :: (l₂' ++ s :: l₂) := by rw [hl, List.append_assoc]; rfl
    obtain ⟨-, -, hknown⟩ := hlap s' (hs' ▸ List.mem_append_right _ List.mem_cons_self) _ (hsettled hs')
    exact hwhom.resolve_right fun hnone => hknown cid' id hgive hnone.1
  · subst hl
    obtain ⟨hbefore, hstep, -⟩ := htrace.split
    exact step_replays_once (hbefore.reachable hstart).told hstep

/-! ### A client that is behind -/

theorem unseen_ordered : unseen.Ordered := by
  refine ⟨List.pairwise_singleton _ _, ?_⟩
  rintro id ⟨m, hm, rfl⟩
  rw [List.mem_singleton.mp hm]
  exact le_refl (1 : Int)

theorem dbOk_of_turns {ts : List Turn} (hl : ∀ s ∈ l, (s.frontend, s.event) ∈ ts) (hts : ∀ t ∈ ts, t.2.DbOk) :
    ∀ s ∈ l, s.event.DbOk := fun s hs => hts _ (hl s hs)

/-- With the message that it missed, `a` gets another one live. While it is away the client `b` polls a third. -/
def visits : List Turn :=
  [([[.connect, .connect]], startOf 1), ([], .command sound ⟨2, 5000, [0x01, 1, 0, 0, 0, 0, 0, 0, 0x62]⟩),
    ([], pollOf 1), ([], pollOf 1), ([], .radio sound shortMessage), ([], .radio sound [0x01, 2]),
    ([[.disconnect 1]], pollOf 2), ([], .radio sound (shortMessage ++ [0x61])), ([[.connect]], startOf 3)]

/-- Whoever would get a message on a channel has nothing pending, and no echo is made. -/
def Unhurried (c : Core) : Prop := c.radioPubkey = none ∧ ∀ cid ∈ c.hearers c.clients.lock 0x11, c.isCaughtUp cid

instance {c : Core} : Decidable (Unhurried c) := inferInstanceAs (Decidable (_ ∧ _))

theorem Unhurried.promptFrame (h : c.Unhurried)
    (hcode : ∀ code, frame.head? = some code → Storable code frame → code = 0x11) : c.PromptFrame frame := by
  refine fun code hhead => ⟨fun hlong cid hcid => ?_, fun _ _ _ _ _ _ hknown => absurd h.1 hknown⟩
  obtain rfl := hcode code hhead hlong
  have hpending := h.2 cid hcid
  rw [isCaughtUp, Option.any_eq_true] at hpending
  obtain ⟨s, hs, hempty⟩ := hpending
  exact ⟨s, hs, List.isEmpty_iff.mp hempty⟩

/-- The turn stores the message and sends it live to the connection of `who`, which asked for no version. -/
def Lap.Hands (s : Lap) (cid : ClientId) (who : Identity) (id : MessageId) (frame : Bytes) : Prop :=
  s.before.identityOf cid = some who ∧ (∃ row ∈ storedRows s.after.out, row.id = id ∧ row.frame = some frame) ∧
    copyFor (fun _ => 0) frame cid ∈ s.after.out.filterMap liveCopy

instance {s : Lap} {cid : ClientId} {who : Identity} {id : MessageId} {frame : Bytes} :
    Decidable (s.Hands cid who id frame) :=
  inferInstanceAs (Decidable (_ ∧ _))

theorem Lap.Hands.gives {cid : ClientId} {who : Identity} {id : MessageId} (h : s.Hands cid who id frame) :
    s.Gives cid id := by
  obtain ⟨-, ⟨row, hrow, hid, hframe⟩, hcopy⟩ := h
  exact Or.inr ⟨row, 0, frame, hrow, hid, hframe, hcopy⟩

theorem not_replayed_again_unseen_run : Except.Holds (do
    let c₀ ← behind
    let (l, c₁) ← c₀.laps visits
    let c₂ ← c₁.step [] (pollOf 3)
    return (c₀, l, c₁, c₂)) fun (_, l, c₁, c₂) =>
      (∀ s ∈ l, Single s.before ∧ (s.before.begin s.frontend).Unhurried) ∧ Single c₁ ∧
      (∃ s ∈ l, .client 1 (some (5000, [0x61])) 0 [0x07] (.replay 1) ∈ s.after.out ∧
        s.before.identityOf 1 = some (5000, [0x61])) ∧ (∃ s ∈ l, s.Hands 1 (5000, [0x61]) 2 shortMessage) ∧
      c₁.identityOf 3 = some (5000, [0x61]) ∧
      .client 3 (some (5000, [0x61])) 0 (messageFrameFor 0 (shortMessage ++ [0x61])) (.replay 3) ∈ c₂.out := by
  decide +kernel

/-- Two messages are given to `a`, one as a replay and one live; once it is back it is replayed the third alone. -/
theorem not_replayed_again_unseen : ∃ c₀ l c s, behind = .ok c₀ ∧ Trace c₀ (l ++ [s]) c ∧
    (Got l (5000, [0x61]) 1 ∧ Got l (5000, [0x61]) 2) ∧ s.Replays 3 3 ∧ s.before.identityOf 3 = some (5000, [0x61]) ∧
    ¬Got l (5000, [0x61]) 3 ∧ (s.after.out.filterMap replayedId).length ≤ 1 := by
  obtain ⟨⟨c₀, l, c₁, c₂⟩, hrun, hready, hsingle₁, ⟨s₁, hs₁, hreplayed, hwho₁⟩, ⟨s₂, hs₂, hlive⟩, hwho, hsent⟩ :=
    not_replayed_again_unseen_run
  obtain ⟨_, hboot, hrun⟩ := Except.of_bind_eq_ok hrun
  obtain ⟨⟨_, _⟩, hlaps, hrun⟩ := Except.of_bind_eq_ok hrun
  obtain ⟨_, hstep, hrun⟩ := Except.of_bind_eq_ok hrun
  cases hrun
  obtain ⟨htrace, hturns⟩ := Trace.of_laps hlaps
  have hall : Trace c₀ (l ++ [⟨c₁, [], pollOf 3, c₂⟩]) c₂ := htrace.append (.cons hstep (.nil c₂))
  have hreplay : Lap.Replays ⟨c₁, [], pollOf 3, c₂⟩ 3 3 := ⟨_, _, _, hsent⟩
  have hgot {s : Lap} (hs : s ∈ l) {id : MessageId} (hgive : s.Gives 1 id)
      (hwho : s.before.identityOf 1 = some (5000, [0x61])) : Got l (5000, [0x61]) id := by
    obtain ⟨l₁, l₂, rfl⟩ := List.append_of_mem hs
    exact ⟨l₁, s, l₂, 1, rfl, hgive, Or.inl hwho⟩
  refine ⟨c₀, l, c₂, _, hboot, hall, ⟨hgot hs₁ (Or.inl ⟨_, _, _, hreplayed⟩) hwho₁, hgot hs₂ hlive.gives hlive.1⟩,
    hreplay, hwho, ?_⟩
  refine not_replayed_again unseen_ordered hboot hall ?_ ?_ ?_ rfl hreplay hwho
  · have hok := dbOk_of_turns hturns (by simp [visits, startOf, pollOf, Event.DbOk, sound, soundAt])
    simpa [or_imp, forall_and, pollOf, Event.DbOk, sound, soundAt] using hok
  · have hsingle (s : Lap) (hs : s ∈ l) : Single s.before := (hready s hs).1
    simpa [or_imp, forall_and, hsingle₁] using hsingle
  · intro s hs
    rcases List.mem_append.mp hs with hs | hs
    · have hvisit : ∀ t ∈ visits, (∀ env, t.2 ≠ .maintenanceTick env) ∧ ∀ env frame, t.2 = .radio env frame →
          ∀ code, frame.head? = some code → Storable code frame → code = 0x11 := by
        simp [visits, startOf, pollOf, shortMessage, Storable]
      obtain ⟨hno, hcode⟩ := hvisit _ (hturns s hs)
      unfold Lap.Prompt
      split
      · rename_i env frame he
        exact (hready s hs).2.promptFrame (hcode env frame he)
      · rename_i env he
        exact absurd he (hno env)
      · trivial
    · rw [List.mem_singleton.mp hs]
      trivial

theorem replayed_again_pending_run : Except.Holds (do
    let c₀ ← behind
    let (l, c₁) ← c₀.laps [([[.connect, .connect]], startOf 1), ([], pollOf 2)]
    let c₂ ← c₁.step [] (.radio sound shortMessage)
    let (l', c₃) ← c₂.laps [([[.disconnect 1, .connect]], startOf 3), ([], pollOf 3)]
    let c₄ ← c₃.step [] (pollOf 3)
    return (c₀, l, c₁, c₂, l', c₃, c₄)) fun (_, l, c₁, c₂, l', c₃, c₄) =>
      ((∀ s ∈ l, Single s.before) ∧ Single c₁ ∧ (∀ s ∈ l', Single s.before) ∧ Single c₃) ∧
      (c₁.identityOf 1 = some (5000, [0x61]) ∧ c₃.identityOf 3 = some (5000, [0x61])) ∧
      ((storedRows c₂.out).map (fun row => (row.id, row.frame)) = [(2, some shortMessage)] ∧
        copyFor (fun _ => 0) shortMessage 1 ∈ c₂.out.filterMap liveCopy) ∧
      .client 3 (some (5000, [0x61])) 0 (messageFrameFor 0 shortMessage) (.replay 2) ∈ c₄.out := by
  decide +kernel

/-- With message 1 still pending the client gets the next one live, and is gone; when it is back, it is replayed
    both. -/
theorem replayed_again_pending : ∃ c₀ l c l₁ s l₂, behind = .ok c₀ ∧ Trace c₀ l c ∧ (∀ s ∈ l, s.event.DbOk) ∧
    (∀ s ∈ l, Single s.before) ∧ l = l₁ ++ s :: l₂ ∧ s.Replays 3 2 ∧ s.before.identityOf 3 = some (5000, [0x61]) ∧
    Got l₁ (5000, [0x61]) 2 := by
  obtain ⟨⟨c₀, l, c₁, c₂, l', c₃, c₄⟩, hrun, ⟨hsingle, hsingle₁, hsingle', hsingle₃⟩, ⟨hwho₁, hwho₃⟩, ⟨hrows, hcopy⟩,
      hsent⟩ := replayed_again_pending_run
  obtain ⟨_, hboot, hrun⟩ := Except.of_bind_eq_ok hrun
  obtain ⟨⟨_, _⟩, hlaps, hrun⟩ := Except.of_bind_eq_ok hrun
  obtain ⟨_, hradio, hrun⟩ := Except.of_bind_eq_ok hrun
  obtain ⟨⟨_, _⟩, hlaps', hrun⟩ := Except.of_bind_eq_ok hrun
  obtain ⟨_, hpoll, hrun⟩ := Except.of_bind_eq_ok hrun
  cases hrun
  obtain ⟨htrace, hturns⟩ := Trace.of_laps hlaps
  obtain ⟨htrace', hturns'⟩ := Trace.of_laps hlaps'
  have hall := htrace.append (.cons hradio (htrace'.append (.cons hpoll (.nil c₄))))
  refine ⟨c₀, _, c₄, l ++ ⟨c₁, [], .radio sound shortMessage, c₂⟩ :: l', ⟨c₃, [], pollOf 3, c₄⟩, [], hboot, hall,
    ?_, ?_, by simp, ⟨_, _, _, hsent⟩, hwho₃, ?_⟩
  · have hok := dbOk_of_turns hturns (by simp [startOf, pollOf, Event.DbOk, sound, soundAt])
    have hok' := dbOk_of_turns hturns' (by simp [startOf, pollOf, Event.DbOk, sound, soundAt])
    intro s hs
    simp only [List.mem_append, List.mem_cons, List.not_mem_nil, or_false] at hs
    rcases hs with hs | rfl | hs | rfl
    · exact hok s hs
    · exact fun _ => rfl
    · exact hok' s hs
    · exact fun _ => rfl
  · intro s hs
    simp only [List.mem_append, List.mem_cons, List.not_mem_nil, or_false] at hs
    rcases hs with hs | rfl | hs | rfl
    · exact hsingle s hs
    · exact hsingle₁
    · exact hsingle' s hs
    · exact hsingle₃
  · obtain ⟨row, hrow, hrest⟩ : ∃ row, storedRows c₂.out = [row] ∧ (row.id, row.frame) = (2, some shortMessage) := by
      obtain ⟨row, hrow, heq⟩ := List.map_eq_singleton_iff.mp hrows
      exact ⟨row, hrow, heq⟩
    obtain ⟨hid, hframe⟩ := Prod.mk.inj hrest
    exact ⟨l, ⟨c₁, [], .radio sound shortMessage, c₂⟩, l', 1, rfl,
      Or.inr ⟨row, 0, shortMessage, by simp [hrow], hid, hframe, hcopy⟩, Or.inl hwho₁⟩

end
end Core
end CoreSplitter
