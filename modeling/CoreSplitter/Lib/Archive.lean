import Mathlib.Data.List.Basic

/-! A list that is swept and then grows at its end, time after time: what stands in it was added once, and no sweep
    since took it. -/

namespace CoreSplitter

/-- What happens to the list at a time: the rows that do not satisfy `keeps` are swept, and others are added. -/
structure Page (α : Type) where
  keeps : α → Bool
  added : List α

namespace Page
variable {α : Type} {l : List α} {ps ps₁ ps₂ : List (Page α)} {p : Page α} {a : α}

/-- Nothing happens. -/
def blank : Page α := ⟨fun _ => true, []⟩

def apply (l : List α) (p : Page α) : List α := l.filter p.keeps ++ p.added

@[simp] theorem apply_blank : apply l blank = l := by simp [apply, blank]

theorem mem_apply : a ∈ apply l p ↔ (a ∈ l ∧ p.keeps a = true) ∨ a ∈ p.added := by
  rw [apply, List.mem_append, List.mem_filter]

/-- The list after some pages. -/
def replay (ps : List (Page α)) (l : List α) : List α := ps.foldl apply l

@[simp] theorem replay_nil : replay [] l = l := rfl

@[simp] theorem replay_cons : replay (p :: ps) l = replay ps (apply l p) := rfl

theorem replay_concat : replay (ps ++ [p]) l = apply (replay ps l) p := List.foldl_concat _ _ _ _

/-- A row stands when it stood before or was added, and no sweep since took it. -/
theorem mem_replay : a ∈ replay ps l ↔ (a ∈ l ∧ ∀ p ∈ ps, p.keeps a = true) ∨
    ∃ ps₁ p ps₂, ps = ps₁ ++ p :: ps₂ ∧ a ∈ p.added ∧ ∀ p' ∈ ps₂, p'.keeps a = true := by
  induction ps generalizing l with
  | nil => simp
  | cons p ps ih =>
    rw [replay_cons, ih, mem_apply, List.forall_mem_cons]
    constructor
    · rintro (⟨⟨hl, hp⟩ | hadded, hps⟩ | ⟨ps₁, p', ps₂, rfl, hadded, hps₂⟩)
      · exact Or.inl ⟨hl, hp, hps⟩
      · exact Or.inr ⟨[], p, ps, rfl, hadded, hps⟩
      · exact Or.inr ⟨p :: ps₁, p', ps₂, rfl, hadded, hps₂⟩
    · rintro (⟨hl, hp, hps⟩ | ⟨ps₁, p', ps₂, heq, hadded, hps₂⟩)
      · exact Or.inl ⟨Or.inl ⟨hl, hp⟩, hps⟩
      · rcases List.cons_eq_append_iff.mp heq with ⟨rfl, heq⟩ | ⟨ps₁, rfl, rfl⟩
        · obtain ⟨rfl, rfl⟩ := List.cons.inj heq
          exact Or.inl ⟨Or.inr hadded, hps₂⟩
        · exact Or.inr ⟨ps₁, p', ps₂, rfl, hadded, hps₂⟩

/-- What stands keeps the order in which it was added. -/
theorem replay_sublist : (replay ps l).Sublist (l ++ ps.flatMap added) := by
  induction ps generalizing l with
  | nil => simp
  | cons p ps ih =>
    rw [replay_cons, List.flatMap_cons, ← List.append_assoc]
    exact ih.trans ((List.filter_sublist.append_right p.added).append_right _)

end Page
end CoreSplitter
