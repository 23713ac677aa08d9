import CoreSplitter.Theorems.Archive
import CoreSplitter.Theorems.Calls
import CoreSplitter.Theorems.Tables

/-! The database file over all that the proxy did: a start opens it, and each turn executes statements on it. None
    of them fails, and what the queries find is what the core reads. -/

namespace CoreSplitter
open Bytes

namespace Database
variable {db db' opened : Database} {st : Statement} {s : NodeState} {t : TableName} {names : List String}
  {f : Relation → Relation} {op : NodeOp} {ops : List NodeOp}

/-! ### A new file -/

/-- The file that is created by connecting to it. -/
def fresh : Database := ⟨fun _ => none, .none⟩

/-- Nothing was ever written. -/
def Blank (db : Database) : Prop := ∀ t r, db.tables t = some r → r.rows = [] ∧ r.seq = 0

theorem Blank.alters (h : Blank db) (ha : Alters db st db') : Blank db' := by
  have hset {t : TableName} {r : Relation} (hr : r.rows = [] ∧ r.seq = 0) : Blank (db.set t r) := by
    intro t' r' hr'
    rw [set_tables] at hr'
    split at hr'
    · exact Option.some.inj hr' ▸ hr
    · exact h t' r' hr'
  cases ha with
  | vacuum => exact h
  | create => exact hset ⟨rfl, rfl⟩
  | @delete r hr =>
    obtain ⟨hrows, hseq⟩ := h _ r hr
    exact hset ⟨(congrArg (List.filter _) hrows : _ = _), hseq⟩
  | @add t r column decl hr => exact hset (h t r hr)

theorem Blank.represents (h : Blank db) (hcomplete : db.Complete) : db.Represents .empty := by
  refine ⟨hcomplete, fun t r hr => ?_⟩
  obtain ⟨hrows, hseq⟩ := h t r hr
  have hselect (names : List String) : r.select names = [] := by rw [Relation.select, hrows, List.map_nil]
  cases t with
  | contacts => exact ⟨[], hselect _, Table.lists_empty⟩
  | channels => exact ⟨[], hselect _, Table.lists_empty⟩
  | messages => exact ⟨hselect _, hseq⟩
  | kvStore => exact ⟨[], ∅, hselect _, Table.lists_empty, fun _ => rfl⟩
  | rawRx => exact hselect _
  | clients => exact ⟨[], hselect _, Table.lists_empty⟩

/-! ### Opened again -/

/-- `open` has nothing left to do. -/
def Opened (db : Database) : Prop := ∀ st ∈ migration, Done st db

theorem Opened.openState (h : Opened db) : db.openState = some db := ladder.rests_all h

/-- What a statement leaves as it was: the columns of each table, and the keys of prior versions stay out. -/
structure Rewrites (db db' : Database) (t : TableName) (r r' : Relation) : Prop where
  old : db.tables t = some r
  new : db' = db.set t r'
  columns : r'.columns = r.columns
  keys : t = .kvStore → ∀ row ∈ r'.rows, row ∈ r.rows ∨ (r.cell row "key").obsolete = false

theorem statement_rewrites (h : db.statement t names f = some db') (hcolumns : ∀ r, (f r).columns = r.columns)
    (hkeys : t = .kvStore → ∀ r, names.all r.has = true → ∀ row ∈ (f r).rows, row ∈ r.rows ∨
      (r.cell row "key").obsolete = false) : ∃ t r r', Rewrites db db' t r r' := by
  obtain ⟨r, hr, h⟩ := Option.bind_eq_some_iff.mp h
  split at h
  · rename_i hnames
    exact ⟨t, r, f r, hr, (Option.some.inj h).symm, hcolumns r, fun ht => hkeys ht r hnames⟩
  · cases h

theorem name_not_obsolete (key : KvKey) : (Value.text (text key.name)).obsolete = false := by
  cases key <;> decide +kernel

theorem perform_rewrites (h : db.perform op = some db') : ∃ t r r', Rewrites db db' t r r' := by
  cases op with
  | kvSet key value =>
    refine statement_rewrites h (fun _ => rfl) fun _ r hnames row hrow => ?_
    rcases List.mem_append.mp hrow with hrow | hrow
    · exact Or.inl (List.mem_filter.mp hrow).1
    · have hhas : r.has "key" = true := List.all_eq_true.mp hnames "key" List.mem_cons_self
      refine Or.inr ?_
      rw [List.mem_singleton.mp hrow]
      show (r.cell (r.columns.map fun c => valueOf ["key", "value"] [.text (text key.name), .blob value] c.name)
        "key").obsolete = false
      rw [Relation.cell_map (fun _ _ => valueOf_congr) hhas, valueOf_cons, if_pos rfl]
      exact name_not_obsolete key
  | advanceClientCursor now who seenId =>
    refine statement_rewrites h (fun r => ?_) fun ht => by cases ht
    split <;> rfl
  | upsertContact | deleteContact | upsertChannel | deleteChannel | insertMessage | insertRawRx
  | purgeMessages | purgeRawRx | purgeContacts | purgeClients =>
    exact statement_rewrites h (fun _ => rfl) fun ht => by cases ht

/-- A table that is rewritten is one, and the others are as they were. -/
theorem Rewrites.tables {r r' r₁ : Relation} {t₁ : TableName} (h : Rewrites db db' t r r')
    (hr₁ : db.tables t₁ = some r₁) : ∃ r₂, db'.tables t₁ = some r₂ ∧ r₂.columns = r₁.columns ∧
      (t₁ = .kvStore → ∀ row ∈ r₂.rows, row ∈ r₁.rows ∨ (r₁.cell row "key").obsolete = false) := by
  rw [h.new, set_tables]
  by_cases ht : t₁ = t
  · subst ht
    obtain rfl := Option.some.inj (h.old.symm.trans hr₁)
    exact ⟨r', if_pos rfl, h.columns, h.keys⟩
  · exact ⟨r₁, (if_neg ht).trans hr₁, rfl, fun _ _ => Or.inl⟩

theorem Rewrites.done {r r' : Relation} (h : Rewrites db db' t r r') (hdone : Done st db) : Done st db' := by
  have hsome {t₁ : TableName} (ht₁ : (db.tables t₁).isSome = true) : (db'.tables t₁).isSome = true := by
    obtain ⟨r₁, hr₁⟩ := Option.isSome_iff_exists.mp ht₁
    obtain ⟨r₂, hr₂, -⟩ := h.tables hr₁
    exact Option.isSome_iff_exists.mpr ⟨r₂, hr₂⟩
  have hmode : db'.autoVacuum = db.autoVacuum := by rw [h.new, set]
  cases st with
  | connect =>
    rcases hdone with hdone | ⟨hdone, t₁, ht₁, hcreated⟩
    · exact Or.inl (hmode.trans hdone)
    · exact Or.inr ⟨hmode.trans hdone, t₁, ht₁, hsome hcreated⟩
  | createTable => exact hsome hdone
  | deleteObsolete =>
    obtain ⟨r₁, hr₁, hkey, hnone⟩ := hdone
    obtain ⟨r₂, hr₂, hcolumns, hkeys⟩ := h.tables hr₁
    refine ⟨r₂, hr₂, by rwa [Relation.has, hcolumns], fun row hrow => ?_⟩
    rw [Relation.cell, hcolumns]
    rcases hkeys rfl row hrow with hold | hnew
    · exact hnone row hold
    · exact hnew
  | addColumnIfMissing t₁ column decl =>
    obtain ⟨r₁, hr₁, hlists⟩ := hdone
    obtain ⟨r₂, hr₂, hcolumns, -⟩ := h.tables hr₁
    exact ⟨r₂, hr₂, by rwa [Relation.lists, hcolumns]⟩
  | convert => exact hmode.trans hdone

theorem Opened.performs (h : Opened db) (hops : ops.foldlM perform db = some db') : Opened db' :=
  foldlM_keeps (fun _ _ _ _ hopened hop st hst => by
    obtain ⟨_, _, _, hrewrites⟩ := perform_rewrites hop
    exact hrewrites.done (hopened st hst)) h hops

theorem fresh_opens : ∃ opened, fresh.openState = some opened ∧ Opened opened ∧ opened.Represents .empty := by
  have hnone (t : TableName) (r : Relation) (hr : fresh.tables t = some r) : False := Option.some_ne_none r hr.symm
  have hdated : Dated fresh := ⟨fun t r hr => (hnone t r hr).elim, fun t r hr => (hnone t r hr).elim⟩
  have hblank : Blank fresh := fun t r hr => (hnone t r hr).elim
  obtain ⟨opened, hopen, -, hcomplete, -⟩ := hdated.opens
  have hblank : Blank opened := foldlM_keeps (fun _ _ _ _ hb hrun => hb.alters (execute_alters hrun)) hblank hopen
  exact ⟨opened, hopen, ladder.does_all hopen, hblank.represents hcomplete⟩

/-- The same statements lead from one state to the other, and from one file to the other. -/
def Executes (s : NodeState) (db : Database) (s' : NodeState) (db' : Database) : Prop :=
  ∃ ops : List NodeOp, s' = ops.foldl NodeState.perform s ∧ ops.foldlM perform db = some db'

theorem Executes.sound {s' : NodeState} (h : Executes s db s' db') (hdb : Opened db ∧ db.Represents s) :
    Opened db' ∧ db'.Represents s' := by
  obtain ⟨ops, rfl, hops⟩ := h
  obtain ⟨db'', hops', h'⟩ := hdb.2.performs ops
  obtain rfl := Option.some.inj (hops'.symm.trans hops)
  exact ⟨hdb.1.performs hops, h'⟩

end Database

/-! ### Calls -/

namespace NodeState
variable {s s₁ s₂ : NodeState}

/-- The second state comes of the first by some statements. -/
def Performs (s s₁ : NodeState) : Prop := ∃ ops : List NodeOp, s₁ = ops.foldl NodeState.perform s

theorem Performs.refl : Performs s s := ⟨[], rfl⟩

theorem Performs.single (op : NodeOp) : Performs s (s.perform op) := ⟨[op], rfl⟩

theorem Performs.trans (h : Performs s s₁) (h₁ : Performs s₁ s₂) : Performs s s₂ := by
  obtain ⟨ops, rfl⟩ := h
  obtain ⟨ops₁, rfl⟩ := h₁
  exact ⟨ops ++ ops₁, List.foldl_append.symm⟩

/-- A stage that is gone through, or not. -/
theorem Performs.stage {p : Prop} [Decidable p] {g : NodeState × Bool → NodeState × Bool} {x : NodeState × Bool}
    (h : Performs s x.1) (hg : ∀ x, Performs x.1 (g x).1) : Performs s (if p then g x else x).1 := by
  split
  · exact h.trans (hg x)
  · exact h

end NodeState

namespace Core
open NodeState (Performs)

section
variable {S : Scope} {l : List Deed} {c c₁ : Core} {s s₁ : NodeState} {env : Env} {db : Database}

theorem Call.performs (h : Call S s s₁) : Performs s s₁ := by
  cases h with
  | upsertContact _ contact => exact Performs.single (.upsertContact _ contact)
  | upsertChannel channel => exact Performs.single (.upsertChannel channel)
  | deleteContact key => exact Performs.single (.deleteContact key)
  | deleteChannel idx => exact Performs.single (.deleteChannel idx)
  | insertMessage _ msg => exact Performs.single (.insertMessage _ msg)
  | advanceClientCursor _ who id => exact Performs.single (.advanceClientCursor _ who id)
  | kvSet _ value => exact Performs.single (.kvSet _ value)
  | @setContactsSyncedAt f => exact Performs.single (.kvSet .contactsSyncedAt (NodeState.i64ToLe f.sentUnix))
  | insertRawRx now code frame => exact Performs.single (.insertRawRx now code frame)

theorem Calls.performs (h : Calls S s s₁) : Performs s s₁ := by
  induction h with
  | refl => exact Performs.refl
  | tail _ hcall ih => exact ih.trans hcall.performs

theorem purge_performs {call : DbCall} {g : NodeState → NodeState} (hg : ∀ s, Performs s (g s)) (x : NodeState × Bool) :
    Performs x.1 (purge env call g x).1 := by
  unfold purge
  split
  · exact hg x.1
  · exact Performs.refl

theorem maintain_performs : Performs c.db (c.maintain env).db := by
  let r := c.config.retention
  have hcontacts (x : NodeState × Bool) : Performs x.1 (c.purgeStale env x).1 := by
    have hread : Performs x.1 (purge env .readSyncedAt id x).1 := purge_performs (fun _ => Performs.refl) x
    unfold purgeStale
    split
    · exact hread.trans (purge_performs (fun _ => Performs.single (.purgeContacts _)) _)
    · exact hread
  refine Performs.stage (g := purge env .purgeClients (·.purgeClients env.unix r.clientsDays)) ?_
    (purge_performs fun _ => Performs.single (.purgeClients _ _))
  refine Performs.stage (g := c.purgeStale env) ?_ hcontacts
  refine Performs.stage (g := purge env .purgeRawRx (·.purgeRawRx env.unix r.rawRxDays)) ?_
    (purge_performs fun _ => Performs.single (.purgeRawRx _ _))
  exact Performs.stage (g := purge env .purgeMessages (·.purgeMessages env.unix r.messagesDays)) Performs.refl
    (purge_performs fun _ => Performs.single (.purgeMessages _ _))

theorem Writes.performs (h : Writes S c c₁) : Performs c.db c₁.db := by
  induction h with
  | refl => exact Performs.refl
  | tail _ hw ih =>
    refine ih.trans ?_
    rcases hw.calls with hcalls | ⟨-, env, -, rfl⟩
    · exact hcalls.performs
    · exact maintain_performs

/-! ### The file -/

/-- What the deeds of the proxy come to in the database file: a start opens it first, and each deed executes its
    statements on it. -/
inductive Filed : List Deed → NodeState → Database → Prop
  | install {opened db : Database} {env : Env} {first : Attempt} {attempts : List Attempt} {after : Core} :
      Database.fresh.openState = some opened → Database.Executes .empty opened after.db db →
      Filed [.boot env first attempts after] after.db db
  | restart {l : List Deed} {s : NodeState} {db opened db' : Database} {env : Env} {first : Attempt}
      {attempts : List Attempt} {after : Core} :
      Filed l s db → db.openState = some opened → Database.Executes s opened after.db db' →
      Filed (l ++ [.boot env first attempts after]) after.db db'
  | turn {l : List Deed} {db db' : Database} {t : Lap} :
      Filed l t.before.db db → Database.Executes t.before.db db t.after.db db' →
      Filed (l ++ [.turn t]) t.after.db db'

/-- The file stands for the state, and has not to be migrated again. -/
theorem Filed.sound (h : Filed l s db) : db.Opened ∧ db.Represents s := by
  induction h with
  | install hopen hops =>
    obtain ⟨opened, hopen', hopened⟩ := Database.fresh_opens
    obtain rfl := Option.some.inj (hopen'.symm.trans hopen)
    exact hops.sound hopened
  | restart _ hopen hops ih =>
    obtain rfl := Option.some.inj (ih.1.openState.symm.trans hopen)
    exact hops.sound ih
  | turn _ hops ih => exact hops.sound ih

theorem executes_of_performs (h : Performs s s₁) (hdb : db.Represents s) : ∃ db', Database.Executes s db s₁ db' := by
  obtain ⟨ops, rfl⟩ := h
  obtain ⟨db', hops, -⟩ := hdb.performs ops
  exact ⟨db', ops, rfl, hops⟩

/-- No statement fails. -/
theorem Service.filed (h : Service l c) : ∃ db, Filed l c.db db := by
  induction h with
  | install hstart =>
    obtain ⟨opened, hopen, -, hrepresents⟩ := Database.fresh_opens
    obtain ⟨db, hops⟩ := executes_of_performs (start_writes hstart).performs hrepresents
    exact ⟨db, .install hopen hops⟩
  | restart _ hstart ih =>
    obtain ⟨db, hfiled⟩ := ih
    obtain ⟨db', hops⟩ := executes_of_performs (start_writes hstart).performs hfiled.sound.2
    exact ⟨db', .restart hfiled hfiled.sound.1.openState hops⟩
  | @turn l c c₁ frontend e _ hs ih =>
    obtain ⟨db, hfiled⟩ := ih
    have hwrites : Writes (e.scope (c.begin frontend)) (c.begin frontend) c₁ := handle_writes hs
    obtain ⟨db', hops⟩ := executes_of_performs (s := c.db) hwrites.performs hfiled.sound.2
    exact ⟨db', .turn (t := ⟨c, frontend, e, c₁⟩) hfiled hops⟩

/-- From the first start on an empty file, each start opens it and each turn finds the tables and columns of its
    statements; whatever the statements make of the file stands for the state of the core and reads back as that
    state, and the next start has nothing to migrate. -/
theorem tables_hold (h : Service l c) : (∃ db, Filed l c.db db) ∧
    ∀ db, Filed l c.db db → db.Represents c.db ∧ (∃ held, db.holds = some held ∧ held.Alike c.db) ∧
    db.openState = some db :=
  ⟨h.filed, fun _ hfiled => ⟨hfiled.sound.2, hfiled.sound.2.holds, hfiled.sound.1.openState⟩⟩

theorem Service.numbered (h : Service l c) : ∀ m ∈ c.db.messages, 0 < m.id := by
  intro m hm
  obtain ⟨hreplay, -, hids⟩ := h.archived
  have hsub : (Page.replay (l.map Deed.messagePage) []).Sublist ([] ++ (l.map Deed.messagePage).flatMap Page.added) :=
    Page.replay_sublist
  have hadded (d : Deed) : d.messagePage.added = d.stored := by cases d <;> rfl
  rw [← hreplay, List.nil_append, List.flatMap_map] at hsub
  have hid : m.id ∈ (l.flatMap Deed.stored).map (·.id) :=
    List.mem_map_of_mem (by simpa only [hadded] using hsub.subset hm)
  rw [hids] at hid
  obtain ⟨i, -, heq⟩ := List.mem_map.mp hid
  rw [← heq]
  exact Int.lt_add_one_of_le (Int.natCast_nonneg i)

/-- Each query of the file gives what the core reads of its state. -/
theorem queries_answered (h : Service l c) (hfiled : Filed l c.db db) :
    db.getChannels = some c.db.getChannels ∧
    (∃ contacts, db.getContacts = some contacts ∧ contacts.Perm c.db.getContacts) ∧
    db.messageHead = some c.db.messageHead ∧
    (∀ after who, db.messageIdsAfter after who = some (c.db.messageIdsAfter after who)) ∧
    (∀ now backlog who, db.backlogMessageIds now backlog who = some (c.db.backlogMessageIds now backlog who)) ∧
    (∀ id, db.messageFrame id = some (c.db.messageFrame id)) ∧
    (∀ who, db.clientCursor who = some (c.db.clientCursor who)) ∧
    ∀ key, db.kvGet key = some (c.db.kvGet key) := by
  have hrepresents := hfiled.sound.2
  have hascending := h.foreign.ordered.ascending
  exact ⟨Database.getChannels_represents hrepresents, Database.getContacts_represents hrepresents,
    Database.messageHead_represents hrepresents h.numbered, Database.messageIdsAfter_represents hrepresents hascending,
    fun _ => Database.backlogMessageIds_represents hrepresents hascending, Database.messageFrame_represents hrepresents,
    Database.clientCursor_represents hrepresents, Database.kvGet_represents hrepresents⟩

/-- Two messages were stored, and the first one was purged. -/
theorem stored_run : ∃ l c, Service l c ∧ c.db.messages.map (·.id) = [2] ∧ c.db.messageSeq = 2 := by
  obtain ⟨⟨c₀, t, c₁, c₂, c₃⟩, hrun, hids, hseq, -⟩ := archive_run
  obtain ⟨_, hboot, hrun⟩ := Except.of_bind_eq_ok hrun
  obtain ⟨⟨_, _⟩, hlaps, hrun⟩ := Except.of_bind_eq_ok hrun
  obtain ⟨_, _, hrun⟩ := Except.of_bind_eq_ok hrun
  obtain ⟨_, _, hrun⟩ := Except.of_bind_eq_ok hrun
  cases hrun
  exact ⟨_, c₁, (Service.install hboot).trace (Trace.of_laps hlaps).1, hids, hseq⟩

theorem tables_hold_purged : ∃ l c db held, Service l c ∧ c.db.messages.map (·.id) = [2] ∧ Filed l c.db db ∧
    db.Represents c.db ∧
    (db.holds = some held ∧ held.messages.map (·.id) = [2]) ∧ db.openState = some db := by
  obtain ⟨l, c, hservice, hids, -⟩ := stored_run
  obtain ⟨⟨db, hfiled⟩, hall⟩ := tables_hold hservice
  obtain ⟨hrepresents, ⟨held, hholds, halike⟩, hopen⟩ := hall db hfiled
  exact ⟨l, c, db, held, hservice, hids, hfiled, hrepresents, ⟨hholds, halike.messages ▸ hids⟩, hopen⟩

theorem queries_answered_purged : ∃ l c db, Service l c ∧ Filed l c.db db ∧ db.messageHead = some 2 := by
  obtain ⟨l, c, hservice, hids, -⟩ := stored_run
  obtain ⟨db, hfiled⟩ := hservice.filed
  obtain ⟨-, -, hhead, -⟩ := queries_answered hservice hfiled
  exact ⟨l, c, db, hservice, hfiled, by rw [hhead, NodeState.messageHead, hids]; rfl⟩

end
end Core
end CoreSplitter
