import CoreSplitter.Lib.Lists
import CoreSplitter.Node.Tables
import CoreSplitter.Theorems.Migration

/-! The tables and the state that they stand for: each statement does to the tables what `Node.State` says, and each
    query finds there what it says. -/

namespace CoreSplitter
open Bytes

/-! ### Rows -/

section
variable {names : List String} {values : List Value} {name name' : String}

theorem valueOf_congr (h : name.toLower = name'.toLower) : valueOf names values name = valueOf names values name' := by
  simp only [valueOf, h]

theorem valueOf_cons {n : String} {v : Value} : valueOf (n :: names) (v :: values) name =
    if n.toLower = name.toLower then v else valueOf names values name := by
  by_cases h : n.toLower = name.toLower
  · simp [valueOf, h]
  · simp [valueOf, h]

/-- Each column gets the value that is given for it. -/
theorem map_valueOf (hnames : (names.map String.toLower).Nodup) (hlen : names.length = values.length) :
    names.map (valueOf names values) = values := by
  induction names generalizing values with
  | nil => exact (List.length_eq_zero_iff.mp hlen.symm).symm
  | cons n names ih =>
    cases values with
    | nil => cases hlen
    | cons v values =>
      obtain ⟨hn, hnames⟩ := List.nodup_cons.mp hnames
      have hrest : names.map (valueOf (n :: names) (v :: values)) = names.map (valueOf names values) :=
        List.map_congr_left fun m hm => by
          have hne : n.toLower ≠ m.toLower := fun heq => hn (List.mem_map.mpr ⟨m, hm, heq.symm⟩)
          rw [valueOf_cons, if_neg hne]
      rw [List.map_cons, valueOf_cons, if_pos rfl, hrest, ih hnames (Nat.succ.inj hlen)]

end

namespace Relation
variable {r : Relation} {α : Type} {l : List α} {cells : α → List Value} {names sel : List String}
  {values : List Value} {name : String} {p : List Value → Bool} {q : α → Bool}

/-- The value of a row that is made column by column. -/
theorem cell_map {f : String → Value} (hf : ∀ n n' : String, n.toLower = n'.toLower → f n = f n')
    (h : r.has name = true) : r.cell (r.columns.map fun c => f c.name) name = f name := by
  have hlt : r.columns.findIdx (·.called name) < r.columns.length := List.findIdx_lt_length.mpr (by simpa [has] using h)
  have hcalled : (r.columns[r.columns.findIdx (·.called name)]).called name = true :=
    List.findIdx_getElem (p := fun c : Column => c.called name) (w := hlt)
  rw [cell, List.getD_eq_getElem?_getD, List.getElem?_map, List.getElem?_eq_getElem hlt, Option.map_some,
    Option.getD_some]
  exact hf _ _ (beq_iff_eq.mp hcalled)

theorem select_insert (h : ∀ n ∈ sel, r.has n = true) :
    (r.insert names values).select sel = r.select sel ++ [sel.map (valueOf names values)] := by
  have hrow : sel.map (r.cell (r.layOut names values)) = sel.map (valueOf names values) :=
    List.map_congr_left fun n hn => cell_map (fun _ _ => valueOf_congr) (h n hn)
  rw [← hrow, select, insert, List.map_append]
  rfl

/-- A row that is added with values for all columns. -/
theorem select_insert_cells {a : α} (h : r.select sel = l.map cells) (hsel : ∀ n ∈ sel, r.has n = true)
    (ha : sel.map (valueOf names values) = cells a) : (r.insert names values).select sel = (l ++ [a]).map cells := by
  rw [select_insert hsel, h, ha, List.map_append]
  rfl

/-- The rows that are left are those that satisfy what the condition says of them. -/
theorem select_retain (h : r.select sel = l.map cells)
    (hp : ∀ row ∈ r.rows, ∀ a ∈ l, sel.map (r.cell row) = cells a → p row = q a) :
    (r.retain p).select sel = (l.filter q).map cells :=
  filter_map_eq_of h hp

theorem select_update {g : α → α} {f : List Value → List Value} (h : r.select sel = l.map cells)
    (hsel : ∀ n ∈ sel, r.has n = true) (hp : ∀ row ∈ r.rows, ∀ a ∈ l, sel.map (r.cell row) = cells a → p row = q a)
    (hg : ∀ row ∈ r.rows, ∀ a ∈ l, sel.map (r.cell row) = cells a →
      sel.map (fun n => if names.any (n.toLower == ·.toLower) then valueOf names (f row) n else r.cell row n) =
      cells (g a)) : (r.update p names f).select sel = (l.map fun a => if q a then g a else a).map cells := by
  rw [List.map_map, select, update, List.map_map]
  refine map_eq_map_of h fun row hrow a ha heq => ?_
  have hcell (row : List Value) (n : String) : Relation.cell (r.update p names f) row n = r.cell row n := rfl
  simp only [Function.comp_apply, hp row hrow a ha heq]
  split
  · rw [← hg row hrow a ha heq]
    refine List.map_congr_left fun n hn => ?_
    exact cell_map (f := fun n => if names.any (n.toLower == ·.toLower) then valueOf names (f row) n
        else r.cell row n) (fun n n' hnn' => by
      rw [hnn', valueOf_congr hnn', show r.cell row n = r.cell row n' by simp only [cell, Column.called, hnn']])
        (hsel n hn)
  · exact heq

/-- The row goes to the end, in the place of the one with its key. -/
theorem select_replace {κ : Type} [DecidableEq κ] {key : String} {keyOf : α → κ} {bound : κ → Value} {a : α}
    (h : r.select sel = l.map cells) (hsel : ∀ n ∈ sel, r.has n = true)
    (hkey : ∀ row b, sel.map (r.cell row) = cells b → r.cell row key = bound (keyOf b))
    (hequals : ∀ k k', (bound k).equals (bound k') = decide (k = k'))
    (hvalue : valueOf names values key = bound (keyOf a)) (ha : sel.map (valueOf names values) = cells a) :
    (r.replace key names values).select sel = ((l.filter fun b => decide (keyOf b ≠ keyOf a)) ++ [a]).map cells := by
  refine select_insert_cells (select_retain h fun row _ b _ hcells => ?_) hsel ha
  rw [hkey row b hcells, hvalue, hequals, decide_not]

end Relation

/-! ### Values -/

namespace Value
variable {α : Type} {v : Value}

@[simp] theorem integer?_iff {n : Int} : v.integer? = some n ↔ v = .integer n := by
  cases v <;> simp [integer?]

@[simp] theorem real?_iff {x : Float} : v.real? = some x ↔ v = .real x := by
  cases v <;> simp [real?]

@[simp] theorem text?_iff {s : Bytes} : v.text? = some s ↔ v = .text s := by
  cases v <;> simp [text?]

@[simp] theorem blob?_iff {b : Bytes} : v.blob? = some b ↔ v = .blob b := by
  cases v <;> simp [blob?]

@[simp] theorem port?_iff {port : UInt16} : v.port? = some port ↔ v = ofPort port := by
  rw [port?, Option.bind_eq_some_iff, ofPort]
  constructor
  · rintro ⟨n, hn, hport⟩
    split at hport
    · rename_i hrange
      obtain rfl := Option.some.inj hport
      have hlt : n.toNat < UInt16.size := by rw [UInt16.size]; omega
      rw [integer?_iff.mp hn, UInt16.toNat_ofNat_of_lt' hlt, Int.toNat_of_nonneg hrange.1]
    · cases hport
  · rintro rfl
    have hlt := port.toNat_lt
    exact ⟨port.toNat, rfl, by rw [if_pos (by omega), Int.toNat_natCast, UInt16.ofNat_toNat]⟩

@[simp] theorem byte?_iff {b : UInt8} : v.byte? = some b ↔ v = .integer b.toNat := by
  rw [byte?, Option.bind_eq_some_iff]
  constructor
  · rintro ⟨n, hn, hbyte⟩
    split at hbyte
    · rename_i hrange
      obtain rfl := Option.some.inj hbyte
      have hlt : n.toNat < UInt8.size := by rw [UInt8.size]; omega
      rw [integer?_iff.mp hn, UInt8.toNat_ofNat_of_lt' hlt, Int.toNat_of_nonneg hrange.1]
    · cases hbyte
  · rintro rfl
    have hlt := b.toNat_lt
    exact ⟨b.toNat, rfl, by rw [if_pos (by omega), Int.toNat_natCast, UInt8.ofNat_toNat]⟩

@[simp] theorem msgType?_iff {t : MsgType} : v.msgType? = some t ↔ v = ofMsgType t := by
  have hne : Bytes.text "channel" ≠ Bytes.text "contact" := by decide
  cases v with
  | text s =>
    rw [msgType?]
    split
    · rename_i heq
      cases t <;> simp [ofMsgType, heq, hne.symm]
    · split
      · rename_i heq
        cases t <;> simp [ofMsgType, heq, hne]
      · cases t <;> simp [ofMsgType, *]
  | null | integer | real | blob => cases t <;> simp [msgType?, ofMsgType]

theorem equals_blob (a b : Bytes) : (blob a).equals (blob b) = decide (a = b) := by
  simp [equals, beq_eq_decide]

theorem equals_text (a b : Bytes) : (text a).equals (text b) = decide (a = b) := by
  simp [equals, beq_eq_decide]

theorem equals_integer (a b : Int) : (integer a).equals (integer b) = decide (a = b) := by
  simp [equals, beq_eq_decide]

theorem equals_ofPort (a b : UInt16) : (ofPort a).equals (ofPort b) = decide (a = b) := by
  rw [ofPort, ofPort, equals_integer]
  exact decide_eq_decide.mpr (by rw [Int.natCast_inj, UInt16.toNat_inj])

theorem isNull_ofOption {f : α → Value} {o : Option α} (hf : ∀ x, (f x).isNull = false) :
    (ofOption f o).isNull = o.isNone := by
  cases o with
  | none => rfl
  | some x => exact hf x

theorem differs_ofOption [BEq α] [LawfulBEq α] [DecidableEq α] {f : α → Value} {o : Option α} {x : α}
    (hf : ∀ x, (f x).isNull = false) (hequals : ∀ x y, (f x).equals (f y) = decide (x = y)) :
    (ofOption f o).differs (f x) = o.any (· != x) := by
  cases o with
  | none => rfl
  | some y => simp [ofOption, differs, hf, hequals, bne, beq_eq_decide]

/-- NULL stands for `None`, and for nothing else. -/
theorem nullable_iff {f : Value → Option α} {g : α → Value} {o : Option α} (hf : ∀ v x, f v = some x ↔ v = g x)
    (hnull : ∀ x, g x ≠ .null) : v.nullable f = some o ↔ v = ofOption g o := by
  cases o with
  | none => cases v <;> simp [nullable, ofOption]
  | some x =>
    cases v with
    | null => simp [nullable, ofOption, (hnull x).symm]
    | integer | real | text | blob => simp [nullable, ofOption, hf]

end Value

/-! ### What stands in a row -/

namespace NodeState

def contactCells (r : ContactRow) : List Value :=
  [.blob r.contact.publicKey, .text r.contact.name, .integer r.contact.contactType,
    .ofOption .integer r.contact.lastAdvert, .ofOption .real r.contact.lat, .ofOption .real r.contact.lon,
    .ofOption .blob r.contact.raw, .ofOption .integer r.seenAt]

def channelCells (c : CachedChannel) : List Value := [.integer c.idx, .text c.name, .ofOption .blob c.config]

def messageCells (m : MessageRow) : List Value :=
  [.integer m.id, .ofMsgType m.msgType, .ofOption .blob m.fromKey, .ofOption .integer m.channelIdx, .text m.text,
    .integer m.timestamp, .ofOption .integer m.receivedAt, .ofOption .blob m.frame, .ofOption .ofPort m.originPort,
    .ofOption .text m.originApp]

def clientCells (r : Identity × ClientRow) : List Value :=
  [.ofPort r.1.1, .text r.1.2, .integer r.2.lastSeenId, .integer r.2.lastConnectedAt]

def rawRxCells (r : Int × UInt8 × Bytes) : List Value := [.integer r.1, .integer r.2.1.toNat, .blob r.2.2]

def kvCells (r : Bytes × Bytes) : List Value := [.text r.1, .blob r.2]

theorem nullableInteger_iff {v : Value} {o : Option Int} :
    v.nullable Value.integer? = some o ↔ v = .ofOption .integer o :=
  Value.nullable_iff (fun _ _ => Value.integer?_iff) nofun

theorem nullableReal_iff {v : Value} {o : Option Float} : v.nullable Value.real? = some o ↔ v = .ofOption .real o :=
  Value.nullable_iff (fun _ _ => Value.real?_iff) nofun

theorem nullableText_iff {v : Value} {o : Option Bytes} : v.nullable Value.text? = some o ↔ v = .ofOption .text o :=
  Value.nullable_iff (fun _ _ => Value.text?_iff) nofun

theorem nullableBlob_iff {v : Value} {o : Option Bytes} : v.nullable Value.blob? = some o ↔ v = .ofOption .blob o :=
  Value.nullable_iff (fun _ _ => Value.blob?_iff) nofun

theorem nullablePort_iff {v : Value} {o : Option UInt16} : v.nullable Value.port? = some o ↔ v = .ofOption .ofPort o :=
  Value.nullable_iff (fun _ _ => Value.port?_iff) nofun

/-- A row is read as what was written, and no other row is read so. -/
theorem messageRow_iff {cells : List Value} {m : MessageRow} : messageRow cells = some m ↔ cells = messageCells m := by
  constructor
  · intro h
    unfold messageRow at h
    split at h
    · simp only [Option.bind_eq_bind, Option.bind_eq_some_iff, Value.integer?_iff, Value.msgType?_iff, Value.text?_iff,
        nullableInteger_iff, nullableText_iff, nullableBlob_iff, nullablePort_iff] at h
      obtain ⟨_, rfl, _, rfl, _, rfl, _, rfl, _, rfl, _, rfl, _, rfl, _, rfl, _, rfl, _, rfl, h⟩ := h
      cases h
      rfl
    · cases h
  · rintro rfl
    simp only [messageRow, messageCells, Option.bind_eq_bind, Option.bind_eq_some_iff, Value.integer?_iff,
      Value.msgType?_iff, Value.text?_iff, nullableInteger_iff, nullableText_iff, nullableBlob_iff, nullablePort_iff]
    exact ⟨_, rfl, _, rfl, _, rfl, _, rfl, _, rfl, _, rfl, _, rfl, _, rfl, _, rfl, _, rfl, rfl⟩

theorem contactRow_iff {cells : List Value} {k : Bytes} {r : ContactRow} :
    contactRow cells = some (k, r) ↔ k = r.contact.publicKey ∧ cells = contactCells r := by
  constructor
  · intro h
    unfold contactRow at h
    split at h
    · simp only [Option.bind_eq_bind, Option.bind_eq_some_iff, Value.integer?_iff, Value.text?_iff, Value.blob?_iff,
        nullableInteger_iff, nullableReal_iff, nullableBlob_iff] at h
      obtain ⟨_, rfl, _, rfl, _, rfl, _, rfl, _, rfl, _, rfl, _, rfl, _, rfl, h⟩ := h
      cases h
      exact ⟨rfl, rfl⟩
    · cases h
  · rintro ⟨rfl, rfl⟩
    simp only [contactRow, contactCells, Option.bind_eq_bind, Option.bind_eq_some_iff, Value.integer?_iff,
      Value.text?_iff, Value.blob?_iff, nullableInteger_iff, nullableReal_iff, nullableBlob_iff]
    exact ⟨_, rfl, _, rfl, _, rfl, _, rfl, _, rfl, _, rfl, _, rfl, _, rfl, rfl⟩

theorem channelRow_iff {cells : List Value} {k : Int} {c : CachedChannel} :
    channelRow cells = some (k, c) ↔ k = c.idx ∧ cells = channelCells c := by
  constructor
  · intro h
    unfold channelRow at h
    split at h
    · simp only [Option.bind_eq_bind, Option.bind_eq_some_iff, Value.integer?_iff, Value.text?_iff,
        nullableBlob_iff] at h
      obtain ⟨_, rfl, _, rfl, _, rfl, h⟩ := h
      cases h
      exact ⟨rfl, rfl⟩
    · cases h
  · rintro ⟨rfl, rfl⟩
    simp only [channelRow, channelCells, Option.bind_eq_bind, Option.bind_eq_some_iff, Value.integer?_iff,
      Value.text?_iff, nullableBlob_iff]
    exact ⟨_, rfl, _, rfl, _, rfl, rfl⟩

theorem clientRow_iff {cells : List Value} {r : Identity × ClientRow} :
    clientRow cells = some r ↔ cells = clientCells r := by
  constructor
  · intro h
    unfold clientRow at h
    split at h
    · simp only [Option.bind_eq_bind, Option.bind_eq_some_iff, Value.integer?_iff, Value.text?_iff,
        Value.port?_iff] at h
      obtain ⟨_, rfl, _, rfl, _, rfl, _, rfl, h⟩ := h
      cases h
      rfl
    · cases h
  · rintro rfl
    simp only [clientRow, clientCells, Option.bind_eq_bind, Option.bind_eq_some_iff, Value.integer?_iff,
      Value.text?_iff, Value.port?_iff]
    exact ⟨_, rfl, _, rfl, _, rfl, _, rfl, rfl⟩

theorem rawRxRow_iff {cells : List Value} {r : Int × UInt8 × Bytes} :
    rawRxRow cells = some r ↔ cells = rawRxCells r := by
  constructor
  · intro h
    unfold rawRxRow at h
    split at h
    · simp only [Option.bind_eq_bind, Option.bind_eq_some_iff, Value.integer?_iff, Value.byte?_iff,
        Value.blob?_iff] at h
      obtain ⟨_, rfl, _, rfl, _, rfl, h⟩ := h
      cases h
      rfl
    · cases h
  · rintro rfl
    simp only [rawRxRow, rawRxCells, Option.bind_eq_bind, Option.bind_eq_some_iff, Value.integer?_iff,
      Value.byte?_iff, Value.blob?_iff]
    exact ⟨_, rfl, _, rfl, _, rfl, rfl⟩

end NodeState

/-! ### What the tables stand for -/

/-- The table holds the part of the state that is kept in it. -/
def Held (s : NodeState) : TableName → Relation → Prop
  | .contacts, r => ∃ l : List ContactRow, r.select TableName.contacts.read = l.map NodeState.contactCells ∧
      Table.Lists (l.map fun c => (c.contact.publicKey, c)) s.contacts
  | .channels, r => ∃ l : List CachedChannel, r.select TableName.channels.read = l.map NodeState.channelCells ∧
      Table.Lists (l.map fun c => (c.idx, c)) s.channels
  | .messages, r => r.select TableName.messages.read = s.messages.map NodeState.messageCells ∧ r.seq = s.messageSeq
  | .kvStore, r => ∃ (l : List (Bytes × Bytes)) (kv : Table Bytes Bytes),
      r.select TableName.kvStore.read = l.map NodeState.kvCells ∧
      Table.Lists l kv ∧ ∀ k, s.kv.lookup k = kv.lookup (text k.name)
  | .rawRx, r => r.select TableName.rawRx.read = s.rawRx.map NodeState.rawRxCells
  | .clients, r => ∃ l, r.select TableName.clients.read = l.map NodeState.clientCells ∧ Table.Lists l s.clients

/-- What is kept in other tables is the same. -/
def NodeState.SameBut (s s' : NodeState) : TableName → Prop
  | .contacts => s' = { s with contacts := s'.contacts }
  | .channels => s' = { s with channels := s'.channels }
  | .messages => s' = { s with messages := s'.messages, messageSeq := s'.messageSeq }
  | .kvStore => s' = { s with kv := s'.kv }
  | .rawRx => s' = { s with rawRx := s'.rawRx }
  | .clients => s' = { s with clients := s'.clients }

theorem Held.same {s s' : NodeState} {t t' : TableName} {r : Relation} (h : Held s t' r) (hsame : s.SameBut s' t)
    (ht : t' ≠ t) : Held s' t' r := by
  cases t <;> rw [hsame] <;> cases t' <;> first | exact absurd rfl ht | exact h

namespace Database

structure Represents (db : Database) (s : NodeState) : Prop where
  complete : db.Complete
  held : ∀ t r, db.tables t = some r → Held s t r

section
variable {db : Database} {s s' : NodeState} {t : TableName} {names : List String} {f : Relation → Relation} {now : Int}

theorem read_nodup (t : TableName) : (t.read.map String.toLower).Nodup := by
  cases t <;> decide +kernel

/-- A statement that does to one table what is done to the state. -/
theorem Represents.statement (h : db.Represents s) (hnames : ∀ n ∈ names, n ∈ t.read) (hsame : s.SameBut s' t)
    (hf : ∀ r, (∀ n ∈ t.read, r.has n = true) → Held s t r → Held s' t (f r) ∧ (f r).columns = r.columns) :
    ∃ db', db.statement t names f = some db' ∧ db'.Represents s' := by
  obtain ⟨r, hr, hhas⟩ := h.complete t
  have hall : names.all r.has = true := List.all_eq_true.mpr fun n hn => hhas n (hnames n hn)
  obtain ⟨hheld, hcolumns⟩ := hf r hhas (h.held t r hr)
  have hstatement : db.statement t names f = some (db.set t (f r)) := by
    simp only [Database.statement, hr, Option.bind_eq_bind, Option.bind_some, hall, if_true]
    rfl
  refine ⟨db.set t (f r), hstatement, fun t' => ?_, fun t' r' hr' => ?_⟩
  · by_cases ht : t' = t
    · subst ht
      exact ⟨f r, set_tables.trans (if_pos rfl), fun n hn => by rw [Relation.has, hcolumns]; exact hhas n hn⟩
    · obtain ⟨r', hr', hhas'⟩ := h.complete t'
      exact ⟨r', by rw [set_tables, if_neg ht, hr'], hhas'⟩
  · rw [set_tables] at hr'
    split at hr'
    · rename_i heq
      subst heq
      exact Option.some.inj hr' ▸ hheld
    · rename_i hne
      exact (h.held t' r' hr').same hsame hne

theorem upsertContact_represents (h : db.Represents s) (c : CachedContact) :
    ∃ db', db.upsertContact now c = some db' ∧ db'.Represents (s.upsertContact now c) := by
  refine h.statement (t := .contacts) (fun _ => id) rfl fun r hhas hheld => ⟨?_, rfl⟩
  obtain ⟨l, hrows, hlists⟩ := hheld
  let a : ContactRow := ⟨c, some now⟩
  have hnew : TableName.contacts.read.map (valueOf TableName.contacts.read (NodeState.contactCells a)) =
      NodeState.contactCells a :=
    map_valueOf (read_nodup .contacts) rfl
  refine ⟨l.filter (fun b => decide (b.contact.publicKey ≠ c.publicKey)) ++ [a], ?_, ?_⟩
  · show (r.replace "public_key" TableName.contacts.read (NodeState.contactCells a)).select _ = _
    exact Relation.select_replace hrows hhas (fun _ _ hcells => (List.cons.inj hcells).1) Value.equals_blob
      (List.cons.inj hnew).1 hnew
  · show Table.Lists _ (s.contacts.insert c.publicKey a)
    simpa [List.filter_map, Function.comp_def] using hlists.replace c.publicKey a

theorem deleteContact_represents (h : db.Represents s) (publicKey : Bytes) :
    ∃ db', db.deleteContact publicKey = some db' ∧ db'.Represents (s.deleteContact publicKey) := by
  refine h.statement (t := .contacts) (by simp [TableName.read]) rfl fun r hhas hheld => ⟨?_, rfl⟩
  obtain ⟨l, hrows, hlists⟩ := hheld
  refine ⟨l.filter fun a => decide (a.contact.publicKey ≠ publicKey),
    Relation.select_retain hrows fun row _ a _ hcells => ?_, ?_⟩
  · have hkey : r.cell row "public_key" = .blob a.contact.publicKey := (List.cons.inj hcells).1
    rw [hkey, Value.equals_blob, decide_not]
  · show Table.Lists _ (s.contacts.erase publicKey)
    simpa [List.filter_map, Function.comp_def] using hlists.erase publicKey

theorem upsertChannel_represents (h : db.Represents s) (c : CachedChannel) :
    ∃ db', db.upsertChannel c = some db' ∧ db'.Represents (s.upsertChannel c) := by
  refine h.statement (t := .channels) (fun _ => id) rfl fun r hhas hheld => ⟨?_, rfl⟩
  obtain ⟨l, hrows, hlists⟩ := hheld
  have hnew : TableName.channels.read.map (valueOf TableName.channels.read (NodeState.channelCells c)) =
      NodeState.channelCells c :=
    map_valueOf (read_nodup .channels) rfl
  refine ⟨l.filter (fun b => decide (b.idx ≠ c.idx)) ++ [c], ?_, ?_⟩
  · show (r.replace "idx" TableName.channels.read (NodeState.channelCells c)).select _ = _
    exact Relation.select_replace hrows hhas (fun _ _ hcells => (List.cons.inj hcells).1) Value.equals_integer
      (List.cons.inj hnew).1 hnew
  · show Table.Lists _ (s.channels.insert c.idx c)
    simpa [List.filter_map, Function.comp_def] using hlists.replace c.idx c

theorem deleteChannel_represents (h : db.Represents s) (idx : Int) :
    ∃ db', db.deleteChannel idx = some db' ∧ db'.Represents (s.deleteChannel idx) := by
  refine h.statement (t := .channels) (by simp [TableName.read]) rfl fun r hhas hheld => ⟨?_, rfl⟩
  obtain ⟨l, hrows, hlists⟩ := hheld
  refine ⟨l.filter fun a => decide (a.idx ≠ idx), Relation.select_retain hrows fun row _ a _ hcells => ?_, ?_⟩
  · have hkey : r.cell row "idx" = .integer a.idx := (List.cons.inj hcells).1
    rw [hkey, Value.equals_integer, decide_not]
  · show Table.Lists _ (s.channels.erase idx)
    simpa [List.filter_map, Function.comp_def] using hlists.erase idx

theorem insertMessage_represents (h : db.Represents s) (msg : NewMessage) :
    ∃ db', db.insertMessage now msg = some db' ∧ db'.Represents (s.insertMessage now msg) := by
  refine h.statement (t := .messages) (by simp [TableName.read]) rfl fun r hhas hheld => ⟨?_, rfl⟩
  obtain ⟨hrows, hseq⟩ := hheld
  have hnew :
      TableName.messages.read.map (valueOf TableName.messages.read (NodeState.messageCells (s.newRow now msg))) =
      NodeState.messageCells (s.newRow now msg) := map_valueOf (read_nodup .messages) rfl
  rw [NodeState.messageCells, NodeState.newRow, ← hseq] at hnew
  refine ⟨?_, congrArg (· + 1) hseq⟩
  exact Relation.select_insert_cells (a := s.newRow now msg) hrows hhas
    (hnew.trans (by rw [NodeState.messageCells, NodeState.newRow, hseq]))

theorem insertRawRx_represents (h : db.Represents s) (code : UInt8) (payload : Bytes) :
    ∃ db', db.insertRawRx now code payload = some db' ∧ db'.Represents (s.insertRawRx now code payload) := by
  refine h.statement (t := .rawRx) (fun _ => id) rfl fun r hhas hheld => ⟨?_, rfl⟩
  have hnew : ("id" :: TableName.rawRx.read).map (valueOf ("id" :: TableName.rawRx.read)
        (.integer (r.seq + 1) :: NodeState.rawRxCells (now, code, payload))) =
      .integer (r.seq + 1) :: NodeState.rawRxCells (now, code, payload) :=
    map_valueOf (by decide +kernel) rfl
  exact Relation.select_insert_cells (a := (now, code, payload)) hheld hhas (List.cons.inj hnew).2

theorem name_inj {k k' : KvKey} (h : text k.name = text k'.name) : k = k' := by
  cases k <;> cases k' <;> first | rfl | exact absurd h (by decide)

theorem kvSet_represents (h : db.Represents s) (key : KvKey) (value : Bytes) :
    ∃ db', db.kvSet key value = some db' ∧ db'.Represents (s.kvSet key value) := by
  refine h.statement (t := .kvStore) (fun _ => id) rfl fun r hhas hheld => ⟨?_, rfl⟩
  obtain ⟨l, kv, hrows, hlists, hkeys⟩ := hheld
  have hnew : TableName.kvStore.read.map (valueOf TableName.kvStore.read (NodeState.kvCells (text key.name, value))) =
      NodeState.kvCells (text key.name, value) := map_valueOf (read_nodup .kvStore) rfl
  refine ⟨_, kv.insert (text key.name) value, ?_, hlists.replace (text key.name) value, fun k => ?_⟩
  · show (r.replace "key" TableName.kvStore.read (NodeState.kvCells (text key.name, value))).select _ = _
    have hkey (row : List Value) (e : Bytes × Bytes)
        (hcells : TableName.kvStore.read.map (r.cell row) = NodeState.kvCells e) :
        r.cell row "key" = .text e.1 := (List.cons.inj hcells).1
    have hvalue : valueOf TableName.kvStore.read (NodeState.kvCells (text key.name, value)) "key" =
        .text (text key.name, value).1 :=
      (List.cons.inj hnew).1
    have hselect := Relation.select_replace hrows hhas hkey Value.equals_text hvalue hnew
    exact hselect
  · show (s.kv.insert key value).lookup k = _
    rw [Table.lookup_insert_eq, Table.lookup_insert_eq, hkeys]
    by_cases heq : k = key
    · rw [if_pos heq, if_pos (congrArg (fun k => text k.name) heq)]
    · rw [if_neg heq, if_neg fun h => heq (name_inj h)]

theorem isClient_iff {r : Relation} {row : List Value} {who : Identity} {e : Identity × ClientRow}
    (h : TableName.clients.read.map (r.cell row) = NodeState.clientCells e) :
    isClient who r row = decide (e.1 = who) := by
  simp only [TableName.read, NodeState.clientCells, List.map_cons, List.cons.injEq] at h
  obtain ⟨hport, happ, -⟩ := h
  rw [isClient, hport, happ, Value.equals_ofPort, Value.equals_text, ← Bool.decide_and]
  exact decide_eq_decide.mpr Prod.ext_iff.symm

/-- The update of a client leaves what it is known by. -/
theorem cells_seen {r : Relation} {row : List Value} {e : Identity × ClientRow} {n : Int}
    (h : TableName.clients.read.map (r.cell row) = NodeState.clientCells e) :
    TableName.clients.read.map (fun name =>
      if ["last_seen_id", "last_connected_at"].any (name.toLower == ·.toLower) then
        valueOf ["last_seen_id", "last_connected_at"] [.integer n, .integer now] name
      else r.cell row name) =
      NodeState.clientCells (e.1, ⟨n, now⟩) := by
  have hnamed :
      TableName.clients.read.map (fun name => ["last_seen_id", "last_connected_at"].any (name.toLower == ·.toLower)) =
      [false, false, true, true] := by decide +kernel
  have hvalues : ["last_seen_id", "last_connected_at"].map
        (valueOf ["last_seen_id", "last_connected_at"] [.integer n, .integer now]) =
      [.integer n, .integer now] := map_valueOf (by decide +kernel) rfl
  simp only [TableName.read, NodeState.clientCells, List.map_cons, List.map_nil, List.cons.injEq,
    and_true] at h hnamed hvalues ⊢
  obtain ⟨hport, happ, -⟩ := h
  obtain ⟨hport', happ', hseen', hconnected'⟩ := hnamed
  obtain ⟨hseen, hconnected⟩ := hvalues
  rw [hport', happ', hseen', hconnected', hport, happ, hseen, hconnected]
  exact ⟨rfl, rfl, rfl, rfl⟩

theorem advanceClientCursor_represents (h : db.Represents s) (who : Identity) (seenId : MessageId) :
    ∃ db', db.advanceClientCursor now who seenId = some db' ∧
    db'.Represents (s.advanceClientCursor now who seenId) := by
  refine h.statement (t := .clients) (fun _ => id) rfl fun r hhas hheld => ⟨?_, by split <;> rfl⟩
  obtain ⟨l, hrows, hlists⟩ := hheld
  have hclient : ∀ row ∈ r.rows, ∀ e ∈ l, TableName.clients.read.map (r.cell row) = NodeState.clientCells e →
      isClient who r row = decide (e.1 = who) := fun _ _ _ _ => isClient_iff
  have hany : r.rows.any (isClient who r) = l.any fun e => decide (e.1 = who) := by
    have hmap := congrArg (List.any · id) (map_eq_map_of hrows hclient)
    simpa [List.any_map, Function.comp_def] using hmap
  by_cases hold : ∃ e ∈ l, e.1 = who
  · obtain ⟨e₀, he₀, rfl⟩ := hold
    have hrow : s.clients.lookup e₀.1 = some e₀.2 := (hlists.mem _ _).mpr he₀
    rw [if_pos (hany.trans (List.any_eq_true.mpr ⟨e₀, he₀, decide_eq_true rfl⟩))]
    refine ⟨_, Relation.select_update (g := fun e => (e.1, ⟨max e.2.lastSeenId seenId, now⟩)) hrows hhas hclient
      fun row _ e _ hcells => ?_, ?_⟩
    · have hseen : r.cell row "last_seen_id" = .integer e.2.lastSeenId :=
        (List.cons.inj (List.cons.inj (List.cons.inj hcells).2).2).1
      rw [hseen]
      exact cells_seen hcells
    · show Table.Lists _ (s.clients.insert e₀.1 (NodeState.advancedRow now seenId (s.clients.lookup e₀.1)))
      rw [hrow]
      have hupdate := hlists.update ⟨e₀, he₀, rfl⟩ (NodeState.advancedRow now seenId (some e₀.2))
      refine (List.map_congr_left fun e he => ?_) ▸ hupdate
      -- the client has one row
      by_cases heq : e.1 = e₀.1
      · have hsame : some e₀.2 = some e.2 := hrow.symm.trans ((hlists.mem _ _).mpr (heq ▸ he))
        rw [if_pos heq, if_pos (decide_eq_true heq), heq, NodeState.advancedRow, Option.some.inj hsame]
      · rw [if_neg heq, if_neg (by simpa using heq)]
  · have hnone : s.clients.lookup who = none := by
      refine Option.eq_none_iff_forall_ne_some.mpr fun row hrow => hold ⟨_, (hlists.mem _ _).mp hrow, rfl⟩
    rw [if_neg (by rw [hany, List.any_eq_true]; simpa using hold)]
    have hnew :
        TableName.clients.read.map (valueOf TableName.clients.read (NodeState.clientCells (who, ⟨seenId, now⟩))) =
        NodeState.clientCells (who, ⟨seenId, now⟩) := map_valueOf (read_nodup .clients) rfl
    refine ⟨_, Relation.select_insert_cells hrows hhas hnew, ?_⟩
    show Table.Lists _ (s.clients.insert who (NodeState.advancedRow now seenId (s.clients.lookup who)))
    rw [hnone]
    exact hlists.insert_concat (fun e he heq => hold ⟨e, he, heq⟩) _

theorem purgeMessages_represents (h : db.Represents s) (days : Nat) :
    ∃ db', db.purgeMessages now days = some db' ∧ db'.Represents (s.purgeMessages now days) := by
  refine h.statement (t := .messages) (by simp [TableName.read]) rfl fun r hhas hheld => ⟨?_, rfl⟩
  obtain ⟨hrows, hseq⟩ := hheld
  refine ⟨Relation.select_retain hrows fun row _ m _ hcells => ?_, hseq⟩
  simp only [TableName.read, NodeState.messageCells, List.map_cons, List.cons.injEq] at hcells
  obtain ⟨-, -, -, -, -, htimestamp, hreceived, -⟩ := hcells
  rw [htimestamp, hreceived]
  cases m.receivedAt <;> rfl

theorem purgeRawRx_represents (h : db.Represents s) (days : Nat) :
    ∃ db', db.purgeRawRx now days = some db' ∧ db'.Represents (s.purgeRawRx now days) := by
  refine h.statement (t := .rawRx) (by simp [TableName.read]) rfl fun r hhas hheld => ⟨?_, rfl⟩
  refine Relation.select_retain hheld fun row _ x _ hcells => ?_
  rw [(List.cons.inj hcells).1]
  rfl

theorem purgeContacts_represents (h : db.Represents s) (threshold : Int) :
    ∃ db', db.purgeContacts threshold = some db' ∧ db'.Represents (s.purgeContacts threshold) := by
  refine h.statement (t := .contacts) (by simp [TableName.read]) rfl fun r hhas hheld => ⟨?_, rfl⟩
  obtain ⟨l, hrows, hlists⟩ := hheld
  refine ⟨l.filter fun a => !decide (a.seenAt.getD 0 < threshold),
    Relation.select_retain hrows fun row _ a _ hcells => ?_, ?_⟩
  · simp only [TableName.read, NodeState.contactCells, List.map_cons, List.cons.injEq] at hcells
    obtain ⟨-, -, -, -, -, -, -, hseen, -⟩ := hcells
    rw [hseen]
    cases a.seenAt <;> rfl
  · show Table.Lists _ (Table.retain (fun _ a => !decide (a.seenAt.getD 0 < threshold)) s.contacts)
    simpa [List.filter_map, Function.comp_def] using hlists.retain fun _ a => !decide (a.seenAt.getD 0 < threshold)

theorem purgeClients_represents (h : db.Represents s) (days : Nat) :
    ∃ db', db.purgeClients now days = some db' ∧ db'.Represents (s.purgeClients now days) := by
  refine h.statement (t := .clients) (by simp [TableName.read]) rfl fun r hhas hheld => ⟨?_, rfl⟩
  obtain ⟨l, hrows, hlists⟩ := hheld
  refine ⟨_, Relation.select_retain hrows fun row _ x _ hcells => ?_,
    hlists.retain fun _ x => !decide (x.lastConnectedAt < NodeState.cutoff now days)⟩
  simp only [TableName.read, NodeState.clientCells, List.map_cons, List.cons.injEq] at hcells
  obtain ⟨-, -, -, hconnected, -⟩ := hcells
  rw [hconnected]
  rfl

/-- Whatever a statement does to the state, it does to the tables. -/
theorem Represents.perform (h : db.Represents s) (op : NodeOp) :
    ∃ db', db.perform op = some db' ∧ db'.Represents (s.perform op) := by
  cases op with
  | upsertContact now c => exact upsertContact_represents h c
  | deleteContact publicKey => exact deleteContact_represents h publicKey
  | upsertChannel c => exact upsertChannel_represents h c
  | deleteChannel idx => exact deleteChannel_represents h idx
  | insertMessage now msg => exact insertMessage_represents h msg
  | advanceClientCursor now who seenId => exact advanceClientCursor_represents h who seenId
  | kvSet key value => exact kvSet_represents h key value
  | insertRawRx now code payload => exact insertRawRx_represents h code payload
  | purgeMessages now days => exact purgeMessages_represents h days
  | purgeRawRx now days => exact purgeRawRx_represents h days
  | purgeContacts threshold => exact purgeContacts_represents h threshold
  | purgeClients now days => exact purgeClients_represents h days

theorem Represents.performs (h : db.Represents s) (ops : List NodeOp) :
    ∃ db', ops.foldlM Database.perform db = some db' ∧ db'.Represents (ops.foldl NodeState.perform s) :=
  foldlM_simulates (fun op h => h.perform op) h

/-! ### Queries -/

theorem Represents.queried {α : Type} (h : db.Represents s) (hnames : ∀ n ∈ names, n ∈ t.read) (g : Relation → α) :
    ∃ r, Held s t r ∧ db.query t names g = some (g r) := by
  obtain ⟨r, hr, hhas⟩ := h.complete t
  have hall : names.all r.has = true := List.all_eq_true.mpr fun n hn => hhas n (hnames n hn)
  refine ⟨r, h.held t r hr, ?_⟩
  simp only [Database.query, hr, Option.bind_eq_bind, Option.bind_some, hall, if_true]
  rfl

theorem Represents.query {α : Type} {g : Relation → α} {a : α} (h : db.Represents s) (hnames : ∀ n ∈ names, n ∈ t.read)
    (hg : ∀ r, Held s t r → g r = a) : db.query t names g = some a := by
  obtain ⟨r, hheld, hquery⟩ := h.queried hnames g
  rw [hquery, hg r hheld]

section
variable {r : Relation} {m : MessageRow} {row : List Value} {p : List Value → Bool} {q : MessageRow → Bool}
  {who : Identity}

/-- What the queries read of a message. -/
structure Reads (r : Relation) (row : List Value) (m : MessageRow) : Prop where
  id : r.cell row "id" = .integer m.id
  receivedAt : r.cell row "received_at" = .ofOption .integer m.receivedAt
  frame : r.cell row "frame" = .ofOption .blob m.frame
  originPort : r.cell row "origin_port" = .ofOption .ofPort m.originPort
  originApp : r.cell row "origin_app" = .ofOption .text m.originApp

theorem reads_of_cells (h : TableName.messages.read.map (r.cell row) = NodeState.messageCells m) : Reads r row m := by
  simp only [TableName.read, NodeState.messageCells, List.map_cons, List.cons.injEq] at h
  obtain ⟨hid, -, -, -, -, -, hreceived, hframe, hport, happ, -⟩ := h
  exact ⟨hid, hreceived, hframe, hport, happ⟩

/-- NULL in the condition counts as what it counts in the model. -/
theorem Reads.replayable (h : Reads r row m) : replayableTo who r row = NodeState.replayableTo who m := by
  rw [replayableTo, NodeState.replayableTo, h.frame, h.originPort, h.originApp, Value.isNull_ofOption fun _ => rfl,
    Value.isNull_ofOption fun _ => rfl, Value.differs_ofOption (fun _ => rfl) Value.equals_ofPort,
    Value.differs_ofOption (fun _ => rfl) Value.equals_text, Option.not_isNone]

theorem idsOf_filter (h : Held s .messages r) (hascending : (s.messages.map (·.id)).Pairwise (· < ·))
    (hp : ∀ row m, Reads r row m → p row = q m) : idsOf r (r.rows.filter p) = (s.messages.filter q).map (·.id) := by
  have hrows := filter_map_eq_of h.1 fun row _ m _ hcells => hp row m (reads_of_cells hcells)
  have hids : ((r.rows.filter p).filterMap fun row => (r.cell row "id").integer?) = (s.messages.filter q).map (·.id) :=
    filterMap_eq_of hrows fun row _ m _ hcells => by rw [(reads_of_cells hcells).id]; rfl
  rw [idsOf, hids]
  exact ((hascending.sublist (List.filter_sublist.map _)).imp fun hlt => le_of_lt hlt).insertionSort_eq

end

theorem messageHead_represents (h : db.Represents s) (hpos : ∀ m ∈ s.messages, 0 < m.id) :
    db.messageHead = some s.messageHead := by
  refine h.query (by simp [TableName.read]) fun r hheld => ?_
  have hids : (r.rows.filterMap fun row => (r.cell row "id").integer?) = s.messages.map (·.id) :=
    filterMap_eq_of hheld.1 fun row _ m _ hcells => by rw [(reads_of_cells hcells).id]; rfl
  rw [hids, NodeState.messageHead]
  cases hmessages : s.messages with
  | nil => rfl
  | cons m l =>
    have hm : 0 < m.id := hpos m (hmessages ▸ List.mem_cons_self)
    rw [List.map_cons, List.max?_cons', Option.getD_some, List.foldl_cons, max_eq_right hm.le]

theorem messageIdsAfter_represents (h : db.Represents s) (hascending : (s.messages.map (·.id)).Pairwise (· < ·))
    (after : MessageId) (who : Identity) : db.messageIdsAfter after who = some (s.messageIdsAfter after who) := by
  refine h.query (by simp [TableName.read]) fun r hheld => idsOf_filter hheld hascending fun row m hm => ?_
  rw [hm.id, hm.replayable]
  rfl

theorem backlogMessageIds_represents (h : db.Represents s) (hascending : (s.messages.map (·.id)).Pairwise (· < ·))
    (backlog : Backlog) (who : Identity) :
    db.backlogMessageIds now backlog who = some (s.backlogMessageIds now backlog who) := by
  cases backlog with
  | off => rfl
  | messages n =>
    refine h.query (by simp [TableName.read]) fun r hheld => ?_
    rw [idsOf_filter hheld hascending fun row m hm => hm.replayable, List.take_reverse]
    set ids := (s.messages.filter (NodeState.replayableTo who)).map (·.id)
    have hsorted : (ids.drop (ids.length - n)).Pairwise (· ≤ ·) :=
      ((hascending.sublist (List.filter_sublist.map _)).imp fun hlt => le_of_lt hlt).sublist (List.drop_sublist _ _)
    exact ((List.perm_insertionSort _ _).trans (List.reverse_perm _)).eq_of_pairwise'
      (List.pairwise_insertionSort _ _) hsorted
  | seconds secs =>
    refine h.query (by simp [TableName.read]) fun r hheld => idsOf_filter hheld hascending fun row m hm => ?_
    rw [hm.receivedAt, hm.replayable]
    cases m.receivedAt <;> rfl

theorem messageFrame_represents (h : db.Represents s) (id : MessageId) :
    db.messageFrame id = some (s.messageFrame id) := by
  refine h.query (by simp [TableName.read]) fun r hheld => find?_bind_eq_of hheld.1 (fun row _ m _ hcells => ?_)
    fun row _ m _ hcells => ?_
  · rw [(reads_of_cells hcells).id, (reads_of_cells hcells).frame, Value.equals_integer]
    cases m.frame <;> simp [Value.ofOption, Value.isNull, beq_eq_decide]
  · rw [(reads_of_cells hcells).frame]
    cases m.frame <;> rfl

theorem clientCursor_represents (h : db.Represents s) (who : Identity) :
    db.clientCursor who = some (s.clientCursor who) := by
  refine h.query (by simp [TableName.read]) fun r ⟨l, hrows, hlists⟩ => ?_
  have hfind : ((r.rows.find? (isClient who r)).bind fun row => (r.cell row "last_seen_id").integer?) =
      (l.find? fun e => decide (e.1 = who)).bind fun e => some e.2.lastSeenId := by
    refine find?_bind_eq_of hrows (fun _ _ _ _ => isClient_iff) fun row _ e _ hcells => ?_
    have hseen : r.cell row "last_seen_id" = .integer e.2.lastSeenId :=
      (List.cons.inj (List.cons.inj (List.cons.inj hcells).2).2).1
    rw [hseen]
    rfl
  rw [hfind, hlists.find?, NodeState.clientCursor]
  cases s.clients.lookup who <;> rfl

theorem kvGet_represents (h : db.Represents s) (key : KvKey) : db.kvGet key = some (s.kvGet key) := by
  refine h.query (fun _ => id) fun r ⟨l, kv, hrows, hlists, hkeys⟩ => ?_
  have hfind :
      ((r.rows.find? fun row => (r.cell row "key").equals (.text (text key.name))).bind fun row =>
        (r.cell row "value").blob?) =
      (l.find? fun e => decide (e.1 = text key.name)).bind fun e => some e.2 := by
    refine find?_bind_eq_of hrows (fun row _ e _ hcells => ?_) fun row _ e _ hcells => ?_
    · have hkey : r.cell row "key" = .text e.1 := (List.cons.inj hcells).1
      rw [hkey, Value.equals_text]
    · have hvalue : r.cell row "value" = .blob e.2 := (List.cons.inj (List.cons.inj hcells).2).1
      rw [hvalue]
      rfl
  rw [hfind, hlists.find?, NodeState.kvGet, hkeys]
  cases kv.lookup (text key.name) <;> rfl

/-- No two channels have the same index, so that the order is one. -/
theorem getChannels_represents (h : db.Represents s) : db.getChannels = some s.getChannels := by
  obtain ⟨r, ⟨l, hrows, hlists⟩, hquery⟩ := h.queried (t := .channels) (fun _ => id) (·.select TableName.channels.read)
  have hread : (l.map NodeState.channelCells).mapM NodeState.channelRow = some (l.map fun c => (c.idx, c)) :=
    mapM_map_some fun c => NodeState.channelRow_iff.mpr ⟨rfl, rfl⟩
  have hperm : l.Perm (s.channels.rows.map (·.2)) := by
    have hvalues := hlists.perm_rows.map (·.2)
    rwa [List.map_map, show ((·.2) ∘ fun c : CachedChannel => (c.idx, c)) = id from rfl, List.map_id] at hvalues
  have hnodup : (l.map (·.idx)).Nodup := by
    have hkeys := hlists.nodup
    rwa [List.map_map] at hkeys
  rw [getChannels, hquery, hrows]
  simp only [Option.bind_eq_bind, Option.bind_some, hread, List.map_map]
  exact congrArg some ((congrArg _ (List.map_id l)).trans (insertionSort_eq_of_perm hperm hnodup))

theorem getContacts_represents (h : db.Represents s) : ∃ l, db.getContacts = some l ∧ l.Perm s.getContacts := by
  obtain ⟨r, ⟨l, hrows, hlists⟩, hquery⟩ := h.queried (t := .contacts) (fun _ => id) (·.select TableName.contacts.read)
  have hread : (l.map NodeState.contactCells).mapM NodeState.contactRow =
      some (l.map fun c => (c.contact.publicKey, c)) :=
    mapM_map_some fun c => NodeState.contactRow_iff.mpr ⟨rfl, rfl⟩
  refine ⟨_, by rw [getContacts, hquery, hrows]; simp only [Option.bind_eq_bind, Option.bind_some, hread]; rfl, ?_⟩
  exact (List.perm_insertionSort _ _).trans
    ((hlists.perm_rows.map (·.2.contact)).trans (List.perm_insertionSort _ _).symm)

end
end Database

/-! ### Read row by row -/

namespace NodeState

/-- The rows are the same, up to the order of those that have keys. -/
structure Alike (s s' : NodeState) : Prop where
  contacts : ∀ k, s.contacts.lookup k = s'.contacts.lookup k
  channels : ∀ k, s.channels.lookup k = s'.channels.lookup k
  messages : s.messages = s'.messages
  messageSeq : s.messageSeq = s'.messageSeq
  clients : ∀ k, s.clients.lookup k = s'.clients.lookup k
  kv : ∀ k, s.kv.lookup k = s'.kv.lookup k
  rawRx : s.rawRx = s'.rawRx

theorem lists_table {κ ν : Type} [DecidableEq κ] {l : List (κ × ν)} (hnodup : (l.map (·.1)).Nodup) :
    Table.Lists l (table l) := by
  induction l using List.reverseRecOn with
  | nil => exact Table.lists_empty
  | append_singleton l e ih =>
    rw [List.map_append, List.nodup_append] at hnodup
    obtain ⟨hnodup, -, hnew⟩ := hnodup
    rw [table, List.foldl_append]
    exact (ih hnodup).insert_concat (fun e' he' => hnew e'.1 (List.mem_map_of_mem he') e.1 (by simp)) e.2

theorem table_lookup {κ ν : Type} [DecidableEq κ] {l : List (κ × ν)} {t : Table κ ν} (h : Table.Lists l t) (k : κ) :
    (table l).lookup k = t.lookup k := (lists_table h.nodup).lookup_eq h k

theorem kvRow_iff {cells : List Value} {key : KvKey} {value : Bytes} :
    kvRow cells = some (key, value) ↔ cells = kvCells (text key.name, value) := by
  constructor
  · intro h
    unfold kvRow at h
    split at h
    · obtain ⟨key', hfind, hsame⟩ := Option.map_eq_some_iff.mp h
      cases hsame
      have hname := List.find?_some hfind
      rw [beq_iff_eq] at hname
      rw [← hname, kvCells]
    · cases h
  · rintro rfl
    cases key <;> rfl

/-- The kept values, without those under keys that no query asks for. -/
theorem lists_kv {s : NodeState} {l : List (Bytes × Bytes)} {kv : Table Bytes Bytes} (h : Table.Lists l kv)
    (hkeys : ∀ k, s.kv.lookup k = kv.lookup (text k.name)) : Table.Lists ((l.map kvCells).filterMap kvRow) s.kv where
  nodup := by
    have hcells : l.Pairwise fun e e' => e.1 ≠ e'.1 := List.pairwise_map.mp h.nodup
    refine List.pairwise_map.mpr ?_
    rw [List.filterMap_map]
    refine List.Pairwise.filterMap _ (fun e e' hne r hr r' hr' hsame => hne ?_) hcells
    have he := kvRow_iff.mp hr
    have he' := kvRow_iff.mp hr'
    simp only [kvCells, List.cons.injEq, Value.text.injEq] at he he'
    rw [he.1, he'.1, hsame]
  mem k v := by
    rw [hkeys, h.mem, List.mem_filterMap]
    constructor
    · intro hmem
      exact ⟨_, List.mem_map_of_mem hmem, kvRow_iff.mpr rfl⟩
    · rintro ⟨cells, hmem, hrow⟩
      obtain ⟨e, he, rfl⟩ := List.mem_map.mp hmem
      have hcells := kvRow_iff.mp hrow
      simp only [kvCells, List.cons.injEq, Value.text.injEq, Value.blob.injEq, and_true] at hcells
      rwa [← hcells.1, ← hcells.2]

end NodeState

namespace Database

/-- What is read row by row is the state. -/
theorem Represents.holds {db : Database} {s : NodeState} (h : db.Represents s) :
    ∃ s', db.holds = some s' ∧ s'.Alike s := by
  have hrows (t : TableName) : ∃ r, db.tables t = some r ∧ db.rows t = r.select t.read ∧ Held s t r := by
    obtain ⟨r, hr, -⟩ := h.complete t
    exact ⟨r, hr, by rw [rows, hr]; rfl, h.held t r hr⟩
  obtain ⟨_, -, hcontacts, lc, hlc, hcontactsOf⟩ := hrows .contacts
  obtain ⟨_, -, hchannels, lh, hlh, hchannelsOf⟩ := hrows .channels
  obtain ⟨rm, hrm, hmessages, hlm, hseq⟩ := hrows .messages
  obtain ⟨_, -, hclients, lp, hlp, hclientsOf⟩ := hrows .clients
  obtain ⟨_, -, hkv, lk, kv, hlk, hkvOf, hkeys⟩ := hrows .kvStore
  obtain ⟨_, -, hraw, hlr⟩ := hrows .rawRx
  rw [hlc] at hcontacts
  rw [hlh] at hchannels
  rw [hlm] at hmessages
  rw [hlp] at hclients
  rw [hlk] at hkv
  rw [hlr] at hraw
  have hreadContacts :
      (db.rows .contacts).mapM NodeState.contactRow = some (lc.map fun c => (c.contact.publicKey, c)) :=
    hcontacts ▸ mapM_map_some fun c => NodeState.contactRow_iff.mpr ⟨rfl, rfl⟩
  have hreadChannels : (db.rows .channels).mapM NodeState.channelRow = some (lh.map fun c => (c.idx, c)) :=
    hchannels ▸ mapM_map_some fun c => NodeState.channelRow_iff.mpr ⟨rfl, rfl⟩
  have hreadMessages : (db.rows .messages).mapM NodeState.messageRow = some (s.messages.map id) :=
    hmessages ▸ mapM_map_some fun m => NodeState.messageRow_iff.mpr rfl
  have hreadClients : (db.rows .clients).mapM NodeState.clientRow = some (lp.map id) :=
    hclients ▸ mapM_map_some fun c => NodeState.clientRow_iff.mpr rfl
  have hreadRaw : (db.rows .rawRx).mapM NodeState.rawRxRow = some (s.rawRx.map id) :=
    hraw ▸ mapM_map_some fun r => NodeState.rawRxRow_iff.mpr rfl
  refine ⟨_, by
    rw [Database.holds, NodeState.ofRows, hreadContacts, hreadChannels, hreadMessages, hreadClients, hreadRaw]
    rfl, ?_⟩
  exact
    { contacts := NodeState.table_lookup hcontactsOf
      channels := NodeState.table_lookup hchannelsOf
      messages := List.map_id _
      messageSeq := by rw [messageSeq, hrm]; exact hseq
      clients := NodeState.table_lookup (by rwa [List.map_id])
      kv := NodeState.table_lookup (hkv ▸ NodeState.lists_kv hkvOf hkeys)
      rawRx := List.map_id _ }

end Database
end CoreSplitter
