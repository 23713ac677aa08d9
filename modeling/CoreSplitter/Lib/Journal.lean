import Mathlib.Data.List.Induction
import CoreSplitter.Lib.Lists
import CoreSplitter.Lib.Table

/-! A table and the journal of its changes: what stands under a key is what the last change that concerns the
    key left there. -/

namespace CoreSplitter

/-- A row is put under its key, the row of a key is taken, or the rows that do not satisfy `keeps` are swept. -/
inductive Change (κ ν : Type)
  | put (k : κ) (v : ν)
  | take (k : κ)
  | sweep (keeps : κ → ν → Bool)

namespace Change
variable {κ ν : Type} [DecidableEq κ] {t : Table κ ν} {j j₁ j₂ : List (Change κ ν)} {ch : Change κ ν} {k : κ} {v : ν}

def apply (t : Table κ ν) : Change κ ν → Table κ ν
  | put k v => t.insert k v
  | take k => t.erase k
  | sweep keeps => t.retain keeps

/-- The change puts a row under `k`. -/
def Puts (k : κ) : Change κ ν → Prop
  | put k' _ => k = k'
  | take _ | sweep _ => False

/-- The change removes the row `v` of `k`. -/
def Drops (k : κ) (v : ν) : Change κ ν → Prop
  | put _ _ => False
  | take k' => k = k'
  | sweep keeps => keeps k v = false

omit [DecidableEq κ] in
theorem Puts.row (h : ch.Puts k) : ∃ v, ch = put k v := by
  cases ch with
  | put k' v => exact ⟨v, congrArg (put · v) (Eq.symm h)⟩
  | take | sweep => exact h.elim

omit [DecidableEq κ] in
theorem Puts.not_drops (h : ch.Puts k) : ¬ch.Drops k v := by
  obtain ⟨v', rfl⟩ := h.row
  exact id

theorem lookup_apply_put : (apply t (put k v)).lookup k = some v := AList.lookup_insert t

/-- Under a key that the change does not put, a row stands that stood before and is not dropped. -/
theorem lookup_apply_eq_some (hputs : ¬ch.Puts k) :
    (apply t ch).lookup k = some v ↔ t.lookup k = some v ∧ ¬ch.Drops k v := by
  cases ch with
  | put k' v' =>
    rw [apply, Table.lookup_insert_eq, if_neg (show ¬k = k' from hputs)]
    exact ⟨fun h => ⟨h, id⟩, And.left⟩
  | take k' =>
    rw [apply, Table.lookup_erase_eq]
    split
    · rename_i hk
      exact ⟨nofun, fun h => absurd hk h.2⟩
    · rename_i hk
      exact ⟨fun h => ⟨h, hk⟩, And.left⟩
  | sweep keeps => rw [apply, Table.lookup_retain_eq_some, Drops, Bool.not_eq_false]

theorem lookup_apply_none (hputs : ¬ch.Puts k) (h : t.lookup k = none) : (apply t ch).lookup k = none := by
  rw [Option.eq_none_iff_forall_ne_some]
  intro v hv
  rw [lookup_apply_eq_some hputs, h] at hv
  cases hv.1

theorem lookup_apply_dropped (hdrops : ch.Drops k v) (h : t.lookup k = some v) : (apply t ch).lookup k = none := by
  rw [Option.eq_none_iff_forall_ne_some]
  intro v' hv
  rw [lookup_apply_eq_some fun hputs => Puts.not_drops hputs hdrops, h] at hv
  cases hv.1
  exact hv.2 hdrops

/-- The table after a journal. -/
def replay (j : List (Change κ ν)) (t : Table κ ν) : Table κ ν := j.foldl apply t

@[simp] theorem replay_nil : replay [] t = t := rfl

@[simp] theorem replay_cons : replay (ch :: j) t = replay j (apply t ch) := rfl

theorem replay_append : replay (j₁ ++ j₂) t = replay j₂ (replay j₁ t) := List.foldl_append

theorem replay_concat : replay (j ++ [ch]) t = apply (replay j t) ch := by rw [replay_append, replay_cons, replay_nil]

/-- A row stands when no change after it was put concerns its key. -/
theorem lookup_replay_eq_some_iff : (replay j t).lookup k = some v ↔
    (t.lookup k = some v ∧ ∀ ch ∈ j, ¬ch.Puts k ∧ ¬ch.Drops k v) ∨
      ∃ j₁ j₂, j = j₁ ++ put k v :: j₂ ∧ ∀ ch ∈ j₂, ¬ch.Puts k ∧ ¬ch.Drops k v := by
  induction j generalizing t with
  | nil => simp
  | cons ch j ih =>
    rw [replay_cons, ih]
    constructor
    · rintro (⟨hrow, hj⟩ | ⟨j₁, j₂, rfl, hj⟩)
      · by_cases hputs : ch.Puts k
        · obtain ⟨v', rfl⟩ := hputs.row
          rw [lookup_apply_put] at hrow
          cases hrow
          exact Or.inr ⟨[], j, rfl, hj⟩
        · obtain ⟨hrow, hdrops⟩ := (lookup_apply_eq_some hputs).mp hrow
          exact Or.inl ⟨hrow, List.forall_mem_cons.mpr ⟨⟨hputs, hdrops⟩, hj⟩⟩
      · exact Or.inr ⟨ch :: j₁, j₂, rfl, hj⟩
    · rintro (⟨hrow, hj⟩ | ⟨j₁, j₂, heq, hj⟩)
      · obtain ⟨⟨hputs, hdrops⟩, hj⟩ := List.forall_mem_cons.mp hj
        exact Or.inl ⟨(lookup_apply_eq_some hputs).mpr ⟨hrow, hdrops⟩, hj⟩
      · rcases List.cons_eq_append_iff.mp heq with ⟨rfl, heq⟩ | ⟨j₁, rfl, rfl⟩
        · obtain ⟨rfl, rfl⟩ := List.cons.inj heq
          exact Or.inl ⟨lookup_apply_put, hj⟩
        · exact Or.inr ⟨j₁, j₂, rfl, hj⟩

/-! ### Losses -/

def isPut : Change κ ν → Bool
  | put _ _ => true
  | take _ | sweep _ => false

/-- A row of `k` is dropped and none is put in its place. -/
def Loses (k : κ) (j : List (Change κ ν)) (t : Table κ ν) : Prop :=
  ∃ j₁ ch j₂ v, j = j₁ ++ ch :: j₂ ∧ (replay j₁ t).lookup k = some v ∧ ch.Drops k v ∧ ∀ ch ∈ j₂, ¬ch.Puts k

theorem loses_concat : Loses k (j ++ [ch]) t ↔ (∃ v, (replay j t).lookup k = some v ∧ ch.Drops k v) ∨
    Loses k j t ∧ ¬ch.Puts k := by
  constructor
  · rintro ⟨j₁, ch', j₂, v, heq, hrow, hdrops, hj₂⟩
    rcases append_cons_eq_concat heq.symm with ⟨rfl, rfl, rfl⟩ | ⟨j₂, rfl, rfl⟩
    · exact Or.inl ⟨v, hrow, hdrops⟩
    · rw [List.forall_mem_append] at hj₂
      exact Or.inr ⟨⟨j₁, ch', j₂, v, rfl, hrow, hdrops, hj₂.1⟩, hj₂.2 _ List.mem_cons_self⟩
  · rintro (⟨v, hrow, hdrops⟩ | ⟨⟨j₁, ch', j₂, v, rfl, hrow, hdrops, hj₂⟩, hputs⟩)
    · exact ⟨j, ch, [], v, rfl, hrow, hdrops, List.forall_mem_nil _⟩
    · refine ⟨j₁, ch', j₂ ++ [ch], v, by simp, hrow, hdrops, List.forall_mem_append.mpr ⟨hj₂, ?_⟩⟩
      simpa using hputs

theorem loses_append : Loses k (j₁ ++ j₂) t ↔ Loses k j₂ (replay j₁ t) ∨ Loses k j₁ t ∧ ∀ ch ∈ j₂, ¬ch.Puts k := by
  induction j₂ using List.reverseRecOn with
  | nil =>
    rw [List.append_nil]
    refine ⟨fun h => Or.inr ⟨h, List.forall_mem_nil _⟩, ?_⟩
    rintro (⟨_, _, _, _, heq, -⟩ | ⟨h, -⟩)
    · simp at heq
    · exact h
  | append_singleton j₂ ch ih =>
    rw [← List.append_assoc, loses_concat, loses_concat, ih, replay_append, List.forall_mem_append,
      List.forall_mem_singleton, or_and_right, and_assoc, or_assoc]

omit [DecidableEq κ] in
theorem Puts.isPut (h : ch.Puts k) : ch.isPut = true := by
  obtain ⟨v, rfl⟩ := h.row
  rfl

omit [DecidableEq κ] in
theorem Drops.not_isPut (h : ch.Drops k v) : ch.isPut = false := by
  cases ch with
  | put => exact h.elim
  | take | sweep => rfl

theorem not_loses_of_puts (hj : ∀ ch ∈ j, ch.isPut = true) : ¬Loses k j t := by
  rintro ⟨j₁, ch, j₂, v, rfl, -, hdrops, -⟩
  have hput := hj ch (by simp)
  rw [hdrops.not_isPut] at hput
  cases hput

/-- Where nothing is put, what is lost stood before. -/
theorem loses_iff_of_no_puts (hj : ∀ ch ∈ j, ch.isPut = false) :
    Loses k j t ↔ ∃ v, t.lookup k = some v ∧ ∃ ch ∈ j, ch.Drops k v := by
  have hno (ch : Change κ ν) (hch : ch ∈ j) : ¬ch.Puts k := fun hputs => by
    have hput := hj ch hch
    rw [hputs.isPut] at hput
    cases hput
  induction j generalizing t with
  | nil =>
    refine ⟨?_, ?_⟩
    · rintro ⟨_, _, _, _, heq, -⟩
      simp at heq
    · rintro ⟨_, -, _, hch, -⟩
      cases hch
  | cons ch j ih =>
    obtain ⟨hch, hj⟩ := List.forall_mem_cons.mp hj
    obtain ⟨hno_ch, hno⟩ := List.forall_mem_cons.mp hno
    have hlater : (∀ ch ∈ j, ¬ch.Puts k) := hno
    have hrest := ih (t := apply t ch) hj hlater
    rw [← List.singleton_append, loses_append, replay_cons, replay_nil]
    constructor
    · rintro (hloses | ⟨⟨j₁, ch', j₂, v, heq, hrow, hdrops, -⟩, -⟩)
      · obtain ⟨v, hrow, ch', hch', hdrops⟩ := hrest.mp hloses
        exact ⟨v, ((lookup_apply_eq_some hno_ch).mp hrow).1, ch', List.mem_cons_of_mem _ hch', hdrops⟩
      · obtain ⟨rfl, rfl, rfl⟩ : j₁ = [] ∧ ch' = ch ∧ j₂ = [] := by
          rcases List.singleton_eq_append_iff.mp heq with ⟨rfl, h⟩ | ⟨-, h⟩
          · cases h
            exact ⟨rfl, rfl, rfl⟩
          · cases h
        exact ⟨v, hrow, ch', List.mem_cons_self, hdrops⟩
    · rintro ⟨v, hrow, ch', hch', hdrops⟩
      by_cases hhere : ch.Drops k v
      · exact Or.inr ⟨⟨[], ch, [], v, rfl, hrow, hhere, List.forall_mem_nil _⟩, hlater⟩
      · rcases List.mem_cons.mp hch' with rfl | hch'
        · exact absurd hdrops hhere
        · exact Or.inl (hrest.mpr ⟨v, (lookup_apply_eq_some hno_ch).mpr ⟨hrow, hhere⟩, ch', hch', hdrops⟩)

/-- Under each key stands the row that was put there last, unless it was lost. -/
theorem lookup_replay_puts :
    (Loses k j t ∧ (replay j t).lookup k = none ∧ (replay (j.filter isPut) t).lookup k ≠ none) ∨
    (¬Loses k j t ∧ (replay j t).lookup k = (replay (j.filter isPut) t).lookup k) := by
  induction j using List.reverseRecOn with
  | nil =>
    refine Or.inr ⟨?_, rfl⟩
    rintro ⟨j₁, ch, j₂, v, heq, -⟩
    simp at heq
  | append_singleton j ch ih =>
    rw [loses_concat, replay_concat, List.filter_append]
    by_cases hputs : ch.Puts k
    · obtain ⟨v, rfl⟩ := hputs.row
      have hputs' : [put k v].filter isPut = [put k v] := rfl
      rw [hputs', replay_concat, lookup_apply_put, lookup_apply_put]
      refine Or.inr ⟨?_, rfl⟩
      rintro (⟨_, _, hdrops⟩ | ⟨_, hno⟩)
      · exact hdrops
      · exact hno hputs
    · have hfilter : (replay (j.filter isPut ++ [ch].filter isPut) t).lookup k =
          (replay (j.filter isPut) t).lookup k := by
        cases ch with
        | put k' v =>
          rw [show [put k' v].filter isPut = [put k' v] from rfl, replay_concat]
          exact AList.lookup_insert_ne hputs
        | take | sweep => rw [show [_].filter isPut = ([] : List (Change κ ν)) from rfl, List.append_nil]
      rw [hfilter]
      rcases ih with ⟨hloses, hnone, hsome⟩ | ⟨hkept, heq⟩
      · exact Or.inl ⟨Or.inr ⟨hloses, hputs⟩, lookup_apply_none hputs hnone, hsome⟩
      · cases hv : (replay j t).lookup k with
        | none =>
          refine Or.inr ⟨?_, by rw [lookup_apply_none hputs hv, ← hv, heq]⟩
          rintro (⟨_, h, -⟩ | ⟨h, -⟩)
          · cases h
          · exact hkept h
        | some v =>
          by_cases hdrops : ch.Drops k v
          · exact Or.inl ⟨Or.inl ⟨v, rfl, hdrops⟩, lookup_apply_dropped hdrops hv, by rw [← heq, hv]; exact nofun⟩
          · refine Or.inr ⟨?_, by rw [(lookup_apply_eq_some hputs).mpr ⟨hv, hdrops⟩, ← hv, heq]⟩
            rintro (⟨_, h, hdrops'⟩ | ⟨h, -⟩)
            · cases h
              exact hdrops hdrops'
            · exact hkept h

end Change
end CoreSplitter
