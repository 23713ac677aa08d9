import CoreSplitter.Lib.Ladder
import CoreSplitter.Lib.Lists
import CoreSplitter.Node.Schema

/-! What `NodeState::open` makes of a database: it may be broken off after any statement, it loses nothing that the
    proxy reads, and the queries find their columns afterwards. -/

namespace CoreSplitter
open Bytes

namespace Relation
variable {r : Relation} {c : Column} {row : List Value} {name : String} {names : List String}

theorem has_of_lists (h : r.lists name = true) : r.has name = true := by
  simp only [lists, has, List.any_eq_true, beq_iff_eq] at h ⊢
  obtain ⟨c, hc, rfl⟩ := h
  exact ⟨c, hc, by simp [Column.called]⟩

theorem lists_addColumn : (r.addColumn c).lists name = (r.lists name || c.name == name) := by
  simp [lists, addColumn]

theorem has_addColumn : (r.addColumn c).has name = (r.has name || c.called name) := by
  simp [has, addColumn]

/-- No row has anything in a column that is added. -/
theorem cell_addColumn (hrow : row ∈ r.rows) : (r.addColumn c).cell row name = r.cell row name := by
  have hfits := r.fits row hrow
  unfold cell addColumn
  rw [List.findIdx_append]
  split
  · rfl
  · rename_i hnone
    rw [List.getD_eq_getElem?_getD, List.getD_eq_getElem?_getD, List.getElem?_eq_none (by omega),
      List.getElem?_eq_none (by omega)]

theorem select_addColumn : (r.addColumn c).select names = r.select names :=
  List.map_congr_left fun _ hrow => List.map_congr_left fun _ _ => cell_addColumn hrow

theorem cell_retain {p : List Value → Bool} : (r.retain p).cell row name = r.cell row name := rfl

end Relation

namespace Database
variable {db db' : Database} {st st' : Statement} {t t' : TableName} {r : Relation}

/-! ### A statement -/

theorem set_tables : (db.set t r).tables t' = if t' = t then some r else db.tables t' := Function.update_apply _ _ _ _

/-- What a statement does. -/
inductive Alters (db : Database) : Statement → Database → Prop
  | vacuum {st : Statement} {mode : AutoVacuum} (hmode : mode = db.autoVacuum ∨ mode = .incremental) :
      Alters db st { db with autoVacuum := mode }
  | create {t : TableName} {columns : List Column} (hnone : db.tables t = none) :
      Alters db (.createTable t columns) (db.set t (.create columns))
  | delete {r : Relation} (hr : db.tables .kvStore = some r) (hkey : r.has "key" = true) :
      Alters db .deleteObsolete (db.set .kvStore (r.retain fun row => !(r.cell row "key").obsolete))
  | add {t : TableName} {r : Relation} {column decl : String} (hr : db.tables t = some r) :
      Alters db (.addColumnIfMissing t column decl) (db.set t (r.addColumn ⟨column, decl⟩))

theorem Alters.refl : Alters db st db := .vacuum (Or.inl rfl)

theorem execute_alters (h : db.execute st = some db') : Alters db st db' := by
  cases st with
  | connect =>
    cases h
    unfold connect
    split
    · exact .refl
    · exact .vacuum (Or.inr rfl)
  | createTable t columns =>
    cases h
    unfold createTable
    split
    · exact .refl
    · exact .create ‹_›
  | deleteObsolete =>
    obtain ⟨r, hr, h⟩ := Option.bind_eq_some_iff.mp h
    split at h
    · cases h
      exact .delete hr ‹_›
    · cases h
  | addColumnIfMissing t column decl =>
    obtain ⟨r, hr, h⟩ := Option.bind_eq_some_iff.mp h
    split at h
    · cases h
      exact .refl
    · split at h
      · cases h
      · cases h
        exact .add hr
  | convert =>
    cases h
    unfold convert
    split
    · exact .refl
    · exact .vacuum (Or.inr rfl)

/-- No table goes, and no column of one. -/
theorem Alters.tables (h : Alters db st db') (hr : db.tables t = some r) :
    ∃ r', db'.tables t = some r' ∧ r'.seq = r.seq ∧
    (∀ name, r.lists name = true → r'.lists name = true) ∧ ∀ name, r.has name = true → r'.has name = true := by
  cases h with
  | vacuum => exact ⟨r, hr, rfl, fun _ => id, fun _ => id⟩
  | @create t' _ hnone =>
    have hne : t ≠ t' := fun heq => by simp [← heq, hr] at hnone
    exact ⟨r, by rw [set_tables, if_neg hne, hr], rfl, fun _ => id, fun _ => id⟩
  | @delete r₀ hr₀ =>
    by_cases heq : t = .kvStore
    · subst heq
      obtain rfl := Option.some.inj (hr₀.symm.trans hr)
      exact ⟨_, set_tables.trans (if_pos rfl), rfl, fun _ => id, fun _ => id⟩
    · exact ⟨r, by rw [set_tables, if_neg heq, hr], rfl, fun _ => id, fun _ => id⟩
  | @add t' r₀ column decl hr₀ =>
    by_cases heq : t = t'
    · subst heq
      obtain rfl := Option.some.inj (hr₀.symm.trans hr)
      refine ⟨r₀.addColumn ⟨column, decl⟩, set_tables.trans (if_pos rfl), rfl, fun name hname => ?_,
        fun name hname => ?_⟩
      · rw [Relation.lists_addColumn, hname, Bool.true_or]
      · rw [Relation.has_addColumn, hname, Bool.true_or]
    · exact ⟨r, by rw [set_tables, if_neg heq, hr], rfl, fun _ => id, fun _ => id⟩

theorem Alters.autoVacuum (h : Alters db st db') : db'.autoVacuum = db.autoVacuum ∨ db'.autoVacuum = .incremental := by
  cases h with
  | vacuum hmode => exact hmode
  | create | delete | add => exact Or.inl rfl

/-! ### Broken off and begun anew -/

/-- The statement has nothing left to do. -/
def Done : Statement → Database → Prop
  | .connect, db => db.autoVacuum = .incremental ∨ db.autoVacuum = .none ∧
      ∃ t ∈ TableName.all, (db.tables t).isSome = true
  | .createTable t _, db => (db.tables t).isSome = true
  | .deleteObsolete, db => ∃ r, db.tables .kvStore = some r ∧ r.has "key" = true ∧
      ∀ row ∈ r.rows, (r.cell row "key").obsolete = false
  | .addColumnIfMissing t column _, db => ∃ r, db.tables t = some r ∧ r.lists column = true
  | .convert, db => db.autoVacuum = .incremental

theorem isSome_of_alters (h : Alters db st db') (ht : (db.tables t).isSome = true) : (db'.tables t).isSome = true := by
  obtain ⟨r, hr⟩ := Option.isSome_iff_exists.mp ht
  obtain ⟨r', hr', -⟩ := h.tables hr
  exact Option.isSome_iff_exists.mpr ⟨r', hr'⟩

theorem execute_does (h : db.execute st = some db') : Done st db' := by
  cases st with
  | connect =>
    cases h
    unfold connect
    split
    · rename_i hnone
      exact Or.inr hnone
    · exact Or.inl rfl
  | createTable t columns =>
    cases h
    unfold createTable
    split
    · rename_i r hr
      exact Option.isSome_iff_exists.mpr ⟨r, hr⟩
    · exact Option.isSome_iff_exists.mpr ⟨_, set_tables.trans (if_pos rfl)⟩
  | deleteObsolete =>
    obtain ⟨r, hr, h⟩ := Option.bind_eq_some_iff.mp h
    split at h
    · rename_i hkey
      cases h
      refine ⟨_, set_tables.trans (if_pos rfl), hkey, fun row hrow => ?_⟩
      rw [Relation.cell_retain]
      simpa using (List.mem_filter.mp hrow).2
    · cases h
  | addColumnIfMissing t column decl =>
    obtain ⟨r, hr, h⟩ := Option.bind_eq_some_iff.mp h
    split at h
    · rename_i hlists
      cases h
      exact ⟨r, hr, hlists⟩
    · split at h
      · cases h
      · cases h
        refine ⟨r.addColumn ⟨column, decl⟩, set_tables.trans (if_pos rfl), ?_⟩
        rw [Relation.lists_addColumn, beq_self_eq_true, Bool.or_true]
  | convert =>
    cases h
    unfold convert
    split
    · assumption
    · rfl

theorem execute_rests (h : Done st db) : db.execute st = some db := by
  cases st with
  | connect =>
    rcases h with h | h
    · have hnone : db.autoVacuum ≠ .none := by simp [h]
      rw [execute, connect, if_neg fun h => hnone h.1, ← h]
    · rw [execute, connect, if_pos h]
  | createTable t columns =>
    obtain ⟨r, hr⟩ := Option.isSome_iff_exists.mp h
    rw [execute, createTable, hr]
  | deleteObsolete =>
    obtain ⟨r, hr, hkey, hnone⟩ := h
    have hretain : (r.retain fun row => !(r.cell row "key").obsolete) = r := by
      have hrows : r.rows.filter (fun row => !(r.cell row "key").obsolete) = r.rows :=
        List.filter_eq_self.mpr fun row hrow => by rw [hnone row hrow, Bool.not_false]
      cases r
      simpa [Relation.retain] using hrows
    have hset : db.set .kvStore r = db := by
      unfold set
      rw [← hr, Function.update_eq_self]
    simp [execute, deleteObsolete, hr, hkey, hretain, hset]
  | addColumnIfMissing t column decl =>
    obtain ⟨r, hr, hlists⟩ := h
    simp [execute, addColumnIfMissing, hr, hlists]
  | convert => rw [execute, convert, if_pos (show db.autoVacuum = .incremental from h)]

theorem Alters.keeps (h : Alters db st' db') (hdone : Done st db) : Done st db' := by
  cases st with
  | connect =>
    rcases hdone with hmode | ⟨hmode, t, ht, hsome⟩
    · rcases h.autoVacuum with hsame | hnew
      · exact Or.inl (hsame.trans hmode)
      · exact Or.inl hnew
    · rcases h.autoVacuum with hsame | hnew
      · exact Or.inr ⟨hsame.trans hmode, t, ht, isSome_of_alters h hsome⟩
      · exact Or.inl hnew
  | createTable => exact isSome_of_alters h hdone
  | deleteObsolete =>
    obtain ⟨r, hr, hkey, hnone⟩ := hdone
    cases h with
    | vacuum => exact ⟨r, hr, hkey, hnone⟩
    | create hmissing =>
      refine ⟨r, ?_, hkey, hnone⟩
      rw [set_tables, if_neg fun heq => by simp [← heq, hr] at hmissing, hr]
    | delete hr₀ =>
      obtain rfl := Option.some.inj (hr₀.symm.trans hr)
      exact ⟨_, set_tables.trans (if_pos rfl), hkey, fun row hrow => hnone row (List.mem_filter.mp hrow).1⟩
    | @add t r₀ _ _ hr₀ =>
      by_cases heq : TableName.kvStore = t
      · subst heq
        obtain rfl := Option.some.inj (hr₀.symm.trans hr)
        refine ⟨_, set_tables.trans (if_pos rfl), by rw [Relation.has_addColumn, hkey, Bool.true_or],
          fun row hrow => ?_⟩
        have hrow : row ∈ r₀.rows := hrow
        rw [Relation.cell_addColumn hrow]
        exact hnone row hrow
      · exact ⟨r, by rw [set_tables, if_neg heq, hr], hkey, hnone⟩
  | addColumnIfMissing t column decl =>
    obtain ⟨r, hr, hlists⟩ := hdone
    obtain ⟨r', hr', -, hkept, -⟩ := h.tables hr
    exact ⟨r', hr', hkept _ hlists⟩
  | convert =>
    rcases h.autoVacuum with hsame | hnew
    · exact hsame.trans hdone
    · exact hnew

theorem ladder : Ladder execute Done where
  does := execute_does
  keeps hdone h := (execute_alters h).keeps hdone
  rests := execute_rests

/-- However often `open` was broken off, and after whichever statements, it makes of the database what it would have
    made at once. -/
theorem open_resumed {ns : List Nat}
    (h : ns.foldlM (fun (db : Database) n => (migration.take n).foldlM execute db) db = some db') :
    db'.openState = db.openState :=
  ladder.resume_all h

/-! ### What is read -/

theorem kvRow_obsolete {key value : Value} (h : key.obsolete = true) : NodeState.kvRow [key, value] = none := by
  cases key with
  | text s =>
    simp only [Value.obsolete, obsoleteKeys, List.any_cons, List.any_nil, Bool.or_false, Bool.or_eq_true,
      beq_iff_eq] at h
    rcases h with rfl | rfl | rfl | rfl | rfl <;> cases value <;> rfl
  | null | integer | real | blob => rfl

theorem ofRows_congr {rows rows' : TableName → List (List Value)} {n : MessageId}
    (h : ∀ t, t ≠ .kvStore → rows t = rows' t)
    (hkv : (rows .kvStore).filterMap NodeState.kvRow = (rows' .kvStore).filterMap NodeState.kvRow) :
    NodeState.ofRows rows n = NodeState.ofRows rows' n := by
  unfold NodeState.ofRows
  rw [h .contacts nofun, h .channels nofun, h .messages nofun, h .clients nofun, h .rawRx nofun, hkv]

theorem rows_set : (db.set t r).rows t' = if t' = t then r.select t.read else db.rows t' := by
  unfold rows
  rw [set_tables]
  split
  · rename_i heq
    rw [heq]
    rfl
  · rfl

theorem messageSeq_set : (db.set t r).messageSeq = if t = .messages then r.seq else db.messageSeq := by
  unfold messageSeq
  rw [set_tables]
  by_cases heq : t = .messages
  · rw [if_pos heq, if_pos heq.symm]
    rfl
  · rw [if_neg heq, if_neg fun h => heq h.symm]

theorem holds_set (hseq : t = .messages → r.seq = db.messageSeq) (hrows : t ≠ .kvStore → r.select t.read = db.rows t)
    (hkv : t = .kvStore → (r.select t.read).filterMap NodeState.kvRow = (db.rows t).filterMap NodeState.kvRow) :
    (db.set t r).holds = db.holds := by
  have hmessages : (db.set t r).messageSeq = db.messageSeq := by
    rw [messageSeq_set]
    split
    · exact hseq ‹_›
    · rfl
  rw [holds, holds, hmessages]
  refine ofRows_congr (fun t' ht' => ?_) ?_
  · rw [rows_set]
    split
    · rename_i heq
      exact heq ▸ hrows (heq ▸ ht')
    · rfl
  · rw [rows_set]
    split
    · rename_i heq
      exact heq ▸ hkv heq.symm
    · rfl

theorem rows_of_some (hr : db.tables t = some r) : db.rows t = r.select t.read := by
  rw [rows, hr]
  rfl

theorem messageSeq_of_some (hr : db.tables t = some r) (ht : t = .messages) : db.messageSeq = r.seq := by
  rw [messageSeq, ← ht, hr]
  rfl

/-- A statement changes nothing that is read. -/
theorem Alters.holds (h : Alters db st db') : db'.holds = db.holds := by
  cases h with
  | vacuum => rfl
  | @create t columns hnone =>
    have hrows : (Relation.create columns).select t.read = db.rows t := by
      rw [rows, hnone]
      rfl
    refine holds_set (fun ht => ?_) (fun _ => hrows) fun _ => by rw [hrows]
    rw [messageSeq, ← ht, hnone]
    rfl
  | @delete r hr =>
    refine holds_set (fun ht => (messageSeq_of_some hr ht).symm) (fun hne => absurd rfl hne) fun _ => ?_
    rw [rows_of_some hr, Relation.select, Relation.select, List.filterMap_map, List.filterMap_map]
    refine List.filterMap_filter.trans (List.filterMap_congr fun row _ => ?_)
    split
    · rfl
    · rename_i hobsolete
      exact (kvRow_obsolete (by simpa using hobsolete)).symm
  | @add t r column decl hr =>
    have hrows : (r.addColumn ⟨column, decl⟩).select t.read = db.rows t :=
      Relation.select_addColumn.trans (rows_of_some hr).symm
    exact holds_set (fun ht => (messageSeq_of_some hr ht).symm) (fun _ => hrows) fun _ => by rw [hrows]

/-- Nothing that was read before is lost by opening, or read otherwise. -/
theorem openState_holds (h : db.openState = some db') : db'.holds = db.holds :=
  foldlM_keeps (P := fun db' => db'.holds = db.holds) (fun _ _ _ _ hs hrun =>
      (execute_alters hrun).holds.trans hs) rfl h

/-! ### Databases of prior versions -/

/-- The tables are as some version left them: they have the columns that they were created with at least, all in
    lower case. -/
structure Dated (db : Database) : Prop where
  base : ∀ t r, db.tables t = some r → ∀ c ∈ t.columns, r.has c.name = true
  lower : ∀ t r, db.tables t = some r → ∀ c ∈ r.columns, c.name.toLower = c.name

theorem columns_lower (t : TableName) : ∀ c ∈ t.columns, c.name.toLower = c.name := by
  cases t <;> decide +kernel

theorem addedColumns_lower : ∀ x ∈ addedColumns, x.2.1.toLower = x.2.1 := by
  decide +kernel

/-- What there is to read was created with the table, or added. -/
theorem read_columns (t : TableName) : ∀ name ∈ t.read, name ∈ t.columns.map (·.name) ∨
    ∃ x ∈ addedColumns, x.1 = t ∧ x.2.1 = name := by
  cases t <;> decide

theorem mem_migration_create {columns : List Column} (h : .createTable t columns ∈ migration) :
    columns = t.columns := by
  simp [migration, addedColumns, TableName.all] at h
  rcases h with h | h | h | h | h | h <;> obtain ⟨rfl, rfl⟩ := h <;> rfl

theorem mem_migration_add {column decl : String} (h : .addColumnIfMissing t column decl ∈ migration) :
    (t, column, decl) ∈ addedColumns := by
  simpa [migration, TableName.all] using h

theorem Dated.alters (hd : Dated db) (hst : st ∈ migration) (h : Alters db st db') : Dated db' := by
  have hset {t : TableName} {r : Relation} (hbase : ∀ c ∈ t.columns, r.has c.name = true)
      (hlower : ∀ c ∈ r.columns, c.name.toLower = c.name) : Dated (db.set t r) := by
    refine ⟨fun t' r' hr' => ?_, fun t' r' hr' => ?_⟩
    · rw [set_tables] at hr'
      split at hr'
      · rename_i heq
        subst heq
        exact Option.some.inj hr' ▸ hbase
      · exact hd.base t' r' hr'
    · rw [set_tables] at hr'
      split at hr'
      · exact Option.some.inj hr' ▸ hlower
      · exact hd.lower t' r' hr'
  cases h with
  | vacuum => exact ⟨hd.base, hd.lower⟩
  | @create t columns =>
    obtain rfl := mem_migration_create hst
    refine hset (fun c hc => ?_) (columns_lower t)
    exact List.any_eq_true.mpr ⟨c, hc, by simp [Column.called]⟩
  | @delete r hr => exact hset (hd.base _ r hr) (hd.lower _ r hr)
  | @add t r column decl hr =>
    refine hset (fun c hc => ?_) fun c hc => ?_
    · rw [Relation.has_addColumn, hd.base t r hr c hc, Bool.true_or]
    · rcases List.mem_append.mp hc with hc | hc
      · exact hd.lower t r hr c hc
      · rw [List.mem_singleton.mp hc]
        exact addedColumns_lower _ (mem_migration_add hst)

/-- The tables are there. -/
def Created (db : Database) : Prop := ∀ t ∈ TableName.all, (db.tables t).isSome = true

theorem Dated.execute_create (hd : Dated db) (hst : st ∈ migration)
    (hfirst : st = .connect ∨ ∃ t, st = .createTable t t.columns) :
    ∃ db', db.execute st = some db' ∧ Dated db' := by
  rcases hfirst with rfl | ⟨t, rfl⟩
  · exact ⟨_, rfl, hd.alters hst (execute_alters rfl)⟩
  · exact ⟨_, rfl, hd.alters hst (execute_alters rfl)⟩

/-- Once the tables are there, no statement fails. -/
theorem Dated.execute_created (hd : Dated db ∧ Created db) (hst : st ∈ migration) :
    ∃ db', db.execute st = some db' ∧ Dated db' ∧ Created db' := by
  suffices hsome : ∃ db', db.execute st = some db' by
    obtain ⟨db', h⟩ := hsome
    exact ⟨db', h, hd.1.alters hst (execute_alters h), fun t ht => isSome_of_alters (execute_alters h) (hd.2 t ht)⟩
  cases st with
  | connect | createTable | convert => exact ⟨_, rfl⟩
  | deleteObsolete =>
    obtain ⟨r, hr⟩ := Option.isSome_iff_exists.mp (hd.2 .kvStore (by decide))
    have hkey : r.has "key" = true := hd.1.base .kvStore r hr ⟨"key", "TEXT PRIMARY KEY"⟩ List.mem_cons_self
    exact ⟨db.set .kvStore (r.retain fun row => !(r.cell row "key").obsolete),
      by simp [execute, deleteObsolete, hr, hkey]⟩
  | addColumnIfMissing t column decl =>
    obtain ⟨r, hr⟩ := Option.isSome_iff_exists.mp (hd.2 t (by cases t <;> decide))
    by_cases hlists : r.lists column = true
    · exact ⟨db, by simp [execute, addColumnIfMissing, hr, hlists]⟩
    · -- a name that differs by its case only would be refused
      have hnew : ¬r.has column = true := by
        intro hhas
        obtain ⟨c, hc, hcalled⟩ := List.any_eq_true.mp hhas
        refine hlists (List.any_eq_true.mpr ⟨c, hc, ?_⟩)
        have hlower : column.toLower = column := addedColumns_lower _ (mem_migration_add hst)
        rw [Column.called, hlower, hd.1.lower t r hr c hc] at hcalled
        exact hcalled
      exact ⟨db.set t (r.addColumn ⟨column, decl⟩), by simp [execute, addColumnIfMissing, hr, hlists, hnew]⟩

/-- Whatever version left the database, it opens; it then holds what it held, and the queries find their columns. -/
theorem Dated.opens (h : Dated db) : ∃ db', db.openState = some db' ∧ db'.holds = db.holds ∧ db'.Complete ∧
    db'.openState = some db' ∧ Dated db' := by
  let first : List Statement := .connect :: TableName.all.map fun t => .createTable t t.columns
  let last : List Statement := .deleteObsolete :: addedColumns.map (fun a => .addColumnIfMissing a.1 a.2.1 a.2.2) ++
    [.convert]
  have hsplit : migration = first ++ last := rfl
  obtain ⟨db₁, hfirst, hd₁⟩ : ∃ db₁, first.foldlM execute db = some db₁ ∧ Dated db₁ := by
    refine foldlM_progress (fun st hst db hd => hd.execute_create (hsplit ▸ List.mem_append_left _ hst) ?_) h
    rcases List.mem_cons.mp hst with rfl | hst
    · exact Or.inl rfl
    · obtain ⟨t, -, rfl⟩ := List.mem_map.mp hst
      exact Or.inr ⟨t, rfl⟩
  have hcreated : Created db₁ := fun t ht =>
    ladder.does_all hfirst (.createTable t t.columns) (List.mem_cons_of_mem _ (List.mem_map_of_mem ht))
  obtain ⟨db', hlast, hd', hcreated'⟩ : ∃ db', last.foldlM execute db₁ = some db' ∧ Dated db' ∧ Created db' :=
    foldlM_progress (fun st hst db hd => Dated.execute_created hd (hsplit ▸ List.mem_append_right _ hst))
      ⟨hd₁, hcreated⟩
  have hopen : db.openState = some db' := by
    rw [openState, hsplit, List.foldlM_append, hfirst]
    exact hlast
  refine ⟨db', hopen, openState_holds hopen, fun t => ?_, ladder.rests_all (ladder.does_all hopen), hd'⟩
  obtain ⟨r, hr⟩ := Option.isSome_iff_exists.mp (hcreated' t (by cases t <;> decide))
  refine ⟨r, hr, fun name hname => ?_⟩
  rcases read_columns t name hname with hbase | ⟨⟨t', column, decl⟩, hadded, rfl, rfl⟩
  · obtain ⟨c, hc, rfl⟩ := List.mem_map.mp hbase
    exact hd'.base t r hr c hc
  · have hmem : .addColumnIfMissing t' column decl ∈ migration := by
      rw [hsplit]
      exact List.mem_append_right _ (List.mem_append_left _ (List.mem_cons_of_mem _ (List.mem_map_of_mem hadded)))
    obtain ⟨r', hr', hlists⟩ := ladder.does_all hopen _ hmem
    obtain rfl := Option.some.inj (hr'.symm.trans hr)
    exact Relation.has_of_lists hlists

/-! ### Messages of old -/

theorem cell_of_not_has {row : List Value} {name : String} (hno : r.has name = false) (hrow : row ∈ r.rows) :
    r.cell row name = .null := by
  have hnone : r.columns.findIdx (·.called name) = r.columns.length :=
    List.findIdx_eq_length.mpr fun c hc => Bool.eq_false_iff.mpr fun hcalled =>
      Bool.false_ne_true (hno.symm.trans (List.any_eq_true.mpr ⟨c, hc, hcalled⟩))
  rw [Relation.cell, hnone, List.getD_eq_getElem?_getD, List.getElem?_eq_none (r.fits row hrow), Option.getD_none]

theorem holds_messages {s : NodeState} (h : db.holds = some s) :
    (db.rows .messages).mapM NodeState.messageRow = some s.messages := by
  obtain ⟨contacts, -, h⟩ := Option.bind_eq_some_iff.mp h
  obtain ⟨channels, -, h⟩ := Option.bind_eq_some_iff.mp h
  obtain ⟨messages, hmessages, h⟩ := Option.bind_eq_some_iff.mp h
  obtain ⟨clients, -, h⟩ := Option.bind_eq_some_iff.mp h
  obtain ⟨rawRx, -, h⟩ := Option.bind_eq_some_iff.mp h
  cases h
  exact hmessages

theorem messageRow_frame {row : List Value} {m : MessageRow} (h : NodeState.messageRow row = some m)
    (hnull : row[7]? = some .null) : m.frame = none := by
  unfold NodeState.messageRow at h
  split at h
  · rename_i frame _ _
    obtain rfl : frame = .null := Option.some.inj hnull
    obtain ⟨_, -, h⟩ := Option.bind_eq_some_iff.mp h
    obtain ⟨_, -, h⟩ := Option.bind_eq_some_iff.mp h
    obtain ⟨_, -, h⟩ := Option.bind_eq_some_iff.mp h
    obtain ⟨_, -, h⟩ := Option.bind_eq_some_iff.mp h
    obtain ⟨_, -, h⟩ := Option.bind_eq_some_iff.mp h
    obtain ⟨_, -, h⟩ := Option.bind_eq_some_iff.mp h
    obtain ⟨_, -, h⟩ := Option.bind_eq_some_iff.mp h
    obtain ⟨_, hframe, h⟩ := Option.bind_eq_some_iff.mp h
    obtain ⟨_, -, h⟩ := Option.bind_eq_some_iff.mp h
    obtain ⟨_, -, h⟩ := Option.bind_eq_some_iff.mp h
    cases h
    exact (Option.some.inj hframe).symm
  · cases h

/-- The messages of a version that kept no frames are all there, row for row, and are replayed to nobody. -/
theorem old_messages_unreplayed {s : NodeState} (h : db.openState = some db') (hs : db'.holds = some s)
    (hold : ∀ r, db.tables .messages = some r → r.has "frame" = false) :
    (db.rows .messages).mapM NodeState.messageRow = some s.messages ∧ (∀ id, s.messageFrame id = none) ∧
      ∀ who, (∀ after, s.messageIdsAfter after who = []) ∧ ∀ now backlog, s.backlogMessageIds now backlog who = [] := by
  have hread : (db.rows .messages).mapM NodeState.messageRow = some s.messages :=
    holds_messages ((openState_holds h).symm.trans hs)
  have hlength : s.messages.length = (db.rows .messages).length := (forall₂_of_mapM hread).length_eq.symm
  have hframe (m : MessageRow) (hm : m ∈ s.messages) : m.frame = none := by
    obtain ⟨i, hi, rfl⟩ := List.getElem_of_mem hm
    have hrow := (List.forall₂_iff_get.mp (forall₂_of_mapM hread)).2 i (hlength ▸ hi) hi
    refine messageRow_frame hrow ?_
    have hmem : (db.rows .messages).get ⟨i, hlength ▸ hi⟩ ∈ db.rows .messages := List.get_mem _ _
    generalize (db.rows .messages).get ⟨i, hlength ▸ hi⟩ = row at hmem
    cases hr : db.tables .messages with
    | none => simp [rows, hr] at hmem
    | some r =>
      rw [rows_of_some hr] at hmem
      obtain ⟨cells, hcells, rfl⟩ := List.mem_map.mp hmem
      exact congrArg some (cell_of_not_has (hold r hr) hcells)
  have hnever (who : Identity) (m : MessageRow) (hm : m ∈ s.messages) : NodeState.replayableTo who m = false := by
    simp [NodeState.replayableTo, hframe m hm]
  refine ⟨hread, fun id => ?_, fun who => ⟨fun after => ?_, fun now backlog => ?_⟩⟩
  · have hfind : s.messages.find? (fun m => m.id == id && m.frame.isSome) = none :=
      List.find?_eq_none.mpr fun m hm => by simp [hframe m hm]
    rw [NodeState.messageFrame, hfind, Option.bind_none]
  · rw [NodeState.messageIdsAfter, List.filter_eq_nil_iff.mpr fun m hm => by simp [hnever who m hm], List.map_nil]
  · have hnone : s.messages.filter (NodeState.replayableTo who) = [] := List.filter_eq_nil_iff.mpr fun m hm => by
      simp [hnever who m hm]
    cases backlog with
    | off => rfl
    | messages n => simp [NodeState.backlogMessageIds, hnone]
    | seconds secs =>
      rw [NodeState.backlogMessageIds, List.filter_eq_nil_iff.mpr fun m hm => by simp [hnever who m hm], List.map_nil]

/-! ### An upgrade -/

/-- What an early version left: a message without its frame, and what it knew of the radio as JSON. -/
def early : Database where
  tables
    | .messages => some ⟨TableName.messages.columns,
        [[.integer 1, .text (Bytes.text "channel"), .null, .integer 0, .text (Bytes.text "hi"), .integer 5]], 1,
        by decide⟩
    | .kvStore => some ⟨TableName.kvStore.columns, [[.text (Bytes.text "self_info"), .blob (Bytes.text "\x7b\x7d")]],
        0, by decide⟩
    | _ => none
  autoVacuum := .none

theorem early_dated : Dated early := by
  refine ⟨fun t r hr => ?_, fun t r hr => ?_⟩
  · cases t <;> cases hr
    · decide +kernel
    · decide +kernel
  · cases t <;> cases hr
    · exact columns_lower .messages
    · exact columns_lower .kvStore

theorem early_opens : ∃ db' s, early.openState = some db' ∧ db'.holds = some s ∧ db'.Complete ∧
    s.messages.map (·.id) = [1] ∧ s.messageSeq = 1 := by
  obtain ⟨db', hopen, hholds, hcomplete, -⟩ := early_dated.opens
  have hstate : (early.holds.map fun s => (s.messages.map (·.id), s.messageSeq)) = some ([1], 1) := by decide +kernel
  obtain ⟨s, hs, hfields⟩ := Option.map_eq_some_iff.mp hstate
  obtain ⟨hids, hseq⟩ := Prod.mk.inj hfields
  exact ⟨db', s, hopen, hholds.trans hs, hcomplete, hids, hseq⟩

/-- Broken off before the tables of the clients were there, and again between two columns. -/
theorem open_resumed_early :
    ∃ db', [5, 12].foldlM (fun (db : Database) n => (migration.take n).foldlM execute db) early = some db' ∧
    db'.openState = early.openState ∧ early.openState ≠ none := by
  have hbroken : ([5, 12].foldlM (fun (db : Database) n => (migration.take n).foldlM execute db) early).isSome =
      true := by decide +kernel
  obtain ⟨db', h⟩ := Option.isSome_iff_exists.mp hbroken
  obtain ⟨_, hopen, -⟩ := early_dated.opens
  exact ⟨db', h, open_resumed h, by simp [hopen]⟩

theorem old_messages_unreplayed_early : ∃ db' s, early.openState = some db' ∧ db'.holds = some s ∧
    s.messages.map (·.id) = [1] ∧ (early.rows .messages).mapM NodeState.messageRow = some s.messages ∧
    s.backlogMessageIds 0 (.messages 10) (5000, [0x61]) = [] := by
  obtain ⟨db', s, hopen, hs, -, hids, -⟩ := early_opens
  have hframeless (r : Relation) (hr : early.tables .messages = some r) : r.has "frame" = false := by
    cases hr
    decide +kernel
  obtain ⟨hkept, -, hnever⟩ := old_messages_unreplayed hopen hs hframeless
  exact ⟨db', s, hopen, hs, hids, hkept, (hnever _).2 0 _⟩

end Database
end CoreSplitter
