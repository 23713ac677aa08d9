import Mathlib.Data.List.AList

/-! Tables with one row for each key. -/

namespace CoreSplitter

abbrev Table (κ ν : Type) [DecidableEq κ] := AList fun _ : κ => ν

namespace Table
variable {κ ν : Type} [DecidableEq κ]

instance [DecidableEq ν] : DecidableEq (Table κ ν) := fun t t' =>
  decidable_of_iff (t.entries = t'.entries) AList.ext_iff.symm

/-- The tables differ under these keys only. -/
def Differs (t t' : Table κ ν) (but : κ → Prop) : Prop := ∀ k, t'.lookup k = t.lookup k ∨ but k

instance [DecidableEq ν] {t t' : Table κ ν} {but : κ → Prop} [DecidablePred but] : Decidable (t.Differs t' but) :=
  decidable_of_iff (∀ k ∈ t.keys ++ t'.keys, t'.lookup k = t.lookup k ∨ but k) <| by
    refine ⟨fun h k => ?_, fun h k _ => h k⟩
    by_cases hk : k ∈ t.keys ++ t'.keys
    · exact h k hk
    · obtain ⟨h₁, h₂⟩ := not_or.mp (mt List.mem_append.mpr hk)
      exact Or.inl ((AList.lookup_eq_none.mpr h₂).trans (AList.lookup_eq_none.mpr h₁).symm)

/-- The rows, with their keys. -/
def rows (t : Table κ ν) : List (κ × ν) := t.entries.map fun e => (e.1, e.2)

theorem mem_rows {t : Table κ ν} {k : κ} {v : ν} : (k, v) ∈ t.rows ↔ t.lookup k = some v := by
  rw [← Option.mem_def, AList.mem_lookup_iff]
  simp only [rows, List.mem_map, Prod.mk.injEq]
  constructor
  · rintro ⟨⟨k', v'⟩, h, rfl, rfl⟩
    exact h
  · intro h
    exact ⟨⟨k, v⟩, h, rfl, rfl⟩

/-- The rows whose key satisfies `p`. -/
def retain (p : κ → ν → Bool) (t : Table κ ν) : Table κ ν :=
  ⟨t.entries.filter fun e => p e.1 e.2, t.nodupKeys.sublist (List.filter_sublist ..)⟩

theorem lookup_retain {p : κ → ν → Bool} {t : Table κ ν} {k : κ} :
    (t.retain p).lookup k = (t.lookup k).filter (p k) := by
  ext v
  rw [← Option.mem_def, AList.mem_lookup_iff, Option.filter_eq_some_iff, ← Option.mem_def, AList.mem_lookup_iff]
  simp [retain]

theorem lookup_retain_eq_some {p : κ → ν → Bool} {t : Table κ ν} {k : κ} {v : ν} :
    (t.retain p).lookup k = some v ↔ t.lookup k = some v ∧ p k v = true := by
  rw [lookup_retain, Option.filter_eq_some_iff]

theorem lookup_insert_eq {t : Table κ ν} {k k' : κ} {v : ν} :
    (t.insert k v).lookup k' = if k' = k then some v else t.lookup k' := by
  by_cases h : k' = k
  · subst h
    simp
  · rw [AList.lookup_insert_ne h]
    simp [h]

theorem lookup_erase_eq {t : Table κ ν} {k k' : κ} :
    (t.erase k).lookup k' = if k' = k then none else t.lookup k' := by
  by_cases h : k' = k
  · subst h
    simp
  · rw [AList.lookup_erase_ne h]
    simp [h]

/-! ### Listed rows -/

/-- The list has the rows of the table, in some order. -/
structure Lists (l : List (κ × ν)) (t : Table κ ν) : Prop where
  nodup : (l.map (·.1)).Nodup
  mem : ∀ k v, t.lookup k = some v ↔ (k, v) ∈ l

section
variable {l : List (κ × ν)} {t : Table κ ν} {k : κ} {v : ν}

theorem lists_empty : Lists [] (∅ : Table κ ν) := ⟨List.nodup_nil, fun _ _ => by simp⟩

theorem lists_rows : Lists t.rows t where
  nodup := by
    have hkeys : t.rows.map (·.1) = t.keys := by simp [rows, AList.keys, List.keys]
    exact hkeys ▸ t.keys_nodup
  mem _ _ := mem_rows.symm

theorem Lists.find? (h : Lists l t) (k : κ) : l.find? (fun e => decide (e.1 = k)) = (t.lookup k).map (k, ·) := by
  cases hrow : t.lookup k with
  | none =>
    refine List.find?_eq_none.mpr fun e he heq => ?_
    rw [← of_decide_eq_true heq, (h.mem _ _).mpr he] at hrow
    cases hrow
  | some v =>
    cases hfind : l.find? (fun e => decide (e.1 = k)) with
    | none =>
      have hno := List.find?_eq_none.mp hfind _ ((h.mem k v).mp hrow)
      simp at hno
    | some e =>
      have hkey : e.1 = k := by simpa using List.find?_some hfind
      have hvalue : t.lookup k = some e.2 := hkey ▸ (h.mem _ _).mpr (List.mem_of_find?_eq_some hfind)
      rw [hrow, Option.some.injEq] at hvalue
      rw [Option.map_some, hvalue, ← hkey]

/-- The rows tell what is found under a key. -/
theorem Lists.lookup_eq {t' : Table κ ν} (h : Lists l t) (h' : Lists l t') (k : κ) : t.lookup k = t'.lookup k :=
  Option.ext fun v => (h.mem k v).trans (h'.mem k v).symm

/-- Up to their order, the rows are these. -/
theorem Lists.perm_rows (h : Lists l t) : l.Perm t.rows :=
  (List.perm_ext_iff_of_nodup h.nodup.of_map lists_rows.nodup.of_map).mpr fun e =>
    (h.mem e.1 e.2).symm.trans mem_rows.symm

theorem Lists.retain (h : Lists l t) (p : κ → ν → Bool) : Lists (l.filter fun e => p e.1 e.2) (t.retain p) where
  nodup := h.nodup.sublist (List.filter_sublist.map _)
  mem k v := by rw [lookup_retain_eq_some, h.mem, List.mem_filter]

theorem Lists.erase (h : Lists l t) (k : κ) : Lists (l.filter fun e => decide (e.1 ≠ k)) (t.erase k) where
  nodup := h.nodup.sublist (List.filter_sublist.map _)
  mem k' v := by
    rw [lookup_erase_eq, List.mem_filter, ← h.mem]
    by_cases heq : k' = k <;> simp [heq]

theorem Lists.insert_concat (h : Lists l t) (hk : ∀ e ∈ l, e.1 ≠ k) (v : ν) : Lists (l ++ [(k, v)]) (t.insert k v) where
  nodup := by
    rw [List.map_append, List.nodup_append]
    refine ⟨h.nodup, List.nodup_singleton _, fun a ha b hb => ?_⟩
    obtain ⟨e, he, rfl⟩ := List.mem_map.mp ha
    exact List.mem_singleton.mp hb ▸ hk e he
  mem k' v' := by
    rw [lookup_insert_eq, List.mem_append, List.mem_singleton, ← h.mem, Prod.mk.injEq]
    by_cases heq : k' = k
    · have hnone : t.lookup k' ≠ some v' := fun hsome => hk _ ((h.mem k' v').mp hsome) heq
      rw [if_pos heq, or_iff_right hnone, and_iff_right heq, Option.some.injEq, eq_comm]
    · simp [heq]

/-- The row is put at the end, in the place of the one that stood under its key. -/
theorem Lists.replace (h : Lists l t) (k : κ) (v : ν) :
    Lists ((l.filter fun e => decide (e.1 ≠ k)) ++ [(k, v)]) (t.insert k v) := by
  have herased := (h.erase k).insert_concat (k := k) (fun e he => by simpa using (List.mem_filter.mp he).2) v
  refine ⟨herased.nodup, fun k' v' => ?_⟩
  rw [← herased.mem, lookup_insert_eq, lookup_insert_eq, lookup_erase_eq]
  split <;> rfl

/-- The row under a key gets another value in its place. -/
theorem Lists.update (h : Lists l t) (hk : ∃ e ∈ l, e.1 = k) (v : ν) :
    Lists (l.map fun e => if e.1 = k then (k, v) else e) (t.insert k v) where
  nodup := by
    have hkeys : (l.map fun e => if e.1 = k then (k, v) else e).map (·.1) = l.map (·.1) := by
      rw [List.map_map]
      refine List.map_congr_left fun e _ => ?_
      simp only [Function.comp_apply]
      split
      · rename_i heq
        exact heq.symm
      · rfl
    exact hkeys ▸ h.nodup
  mem k' v' := by
    rw [lookup_insert_eq, List.mem_map]
    by_cases heq : k' = k
    · subst heq
      rw [if_pos rfl, Option.some.injEq]
      constructor
      · rintro rfl
        obtain ⟨e, he, hkey⟩ := hk
        exact ⟨e, he, if_pos hkey⟩
      · rintro ⟨e, he, hrow⟩
        split at hrow
        · exact congrArg Prod.snd hrow
        · rename_i hne
          exact absurd (congrArg Prod.fst hrow) hne
    · rw [if_neg heq, h.mem]
      constructor
      · intro hmem
        exact ⟨_, hmem, if_neg heq⟩
      · rintro ⟨e, he, hrow⟩
        split at hrow
        · exact absurd (congrArg Prod.fst hrow).symm heq
        · exact hrow ▸ he

end

end Table
end CoreSplitter
