import Mathlib.Order.MinMax
import Mathlib.Data.List.Basic
import Mathlib.Data.List.Induction
import Mathlib.Data.List.Sort

/-! Lists: the largest entry, the last one, entries that are read one by one, lists that look alike, and what held
    of all entries since one. -/

namespace CoreSplitter

theorem append_cons_eq_concat {α : Type} {l₁ l₂ l : List α} {a b : α} (h : l₁ ++ a :: l₂ = l ++ [b]) :
    (l₁ = l ∧ a = b ∧ l₂ = []) ∨ ∃ l₃, l₂ = l₃ ++ [b] ∧ l₁ ++ a :: l₃ = l := by
  rcases List.eq_nil_or_concat' l₂ with rfl | ⟨l₃, last, rfl⟩
  · obtain ⟨rfl, hlast⟩ := List.append_inj' h rfl
    exact Or.inl ⟨rfl, List.singleton_inj.mp hlast, rfl⟩
  · rw [← List.cons_append, ← List.append_assoc] at h
    obtain ⟨hl, hlast⟩ := List.append_inj' h rfl
    exact Or.inr ⟨l₃, by rw [List.singleton_inj.mp hlast], hl⟩

/-- Of two entries one comes first, or they are one. -/
theorem append_cons_cases {α : Type} {l₁ l₂ m₁ m₂ : List α} {a b : α} (h : l₁ ++ a :: l₂ = m₁ ++ b :: m₂) :
    (∃ n, m₁ = l₁ ++ a :: n ∧ l₂ = n ++ b :: m₂) ∨ (l₁ = m₁ ∧ a = b ∧ l₂ = m₂) ∨
    ∃ n, l₁ = m₁ ++ b :: n ∧ m₂ = n ++ a :: l₂ := by
  rcases List.append_eq_append_iff.mp h with ⟨n, rfl, hn⟩ | ⟨n, rfl, hn⟩
  · rcases List.cons_eq_append_iff.mp hn with ⟨rfl, hn⟩ | ⟨n, rfl, rfl⟩
    · cases hn
      simp
    · exact Or.inl ⟨n, rfl, rfl⟩
  · rcases List.cons_eq_append_iff.mp hn with ⟨rfl, hn⟩ | ⟨n, rfl, rfl⟩
    · cases hn
      simp
    · exact Or.inr (Or.inr ⟨n, rfl, rfl⟩)

/-- Of the entries in ascending order, the last `n` are those with fewer than `n` above them. -/
theorem mem_drop_iff_of_sorted {α : Type} [LinearOrder α] {l : List α} {n : ℕ} {a : α} (h : l.Pairwise (· < ·)) :
    a ∈ l.drop (l.length - n) ↔ a ∈ l ∧ (l.filter fun b => decide (a < b)).length < n := by
  by_cases ha : a ∈ l
  · obtain ⟨l₁, l₂, rfl⟩ := List.append_of_mem ha
    obtain ⟨-, hright, hcross⟩ := List.pairwise_append.mp h
    have habove := (List.pairwise_cons.mp hright).1
    have hbelow (b : α) (hb : b ∈ l₁) : ¬a < b := not_lt.mpr (hcross b hb a List.mem_cons_self).le
    have hfilter : (l₁ ++ a :: l₂).filter (fun b => decide (a < b)) = l₂ := by
      rw [List.filter_append, List.filter_eq_nil_iff.mpr (by simpa using hbelow), List.nil_append,
        List.filter_cons_of_neg (by simp), List.filter_eq_self.mpr (by simpa using habove)]
    rw [and_iff_right ha, hfilter, List.drop_append, List.mem_append]
    have hold : a ∉ l₁.drop ((l₁ ++ a :: l₂).length - n) :=
      fun hmem => lt_irrefl a (hcross a (List.mem_of_mem_drop hmem) a List.mem_cons_self)
    rw [or_iff_right hold]
    simp only [List.length_append, List.length_cons]
    by_cases hn : l₂.length < n
    · rw [show l₁.length + (l₂.length + 1) - n - l₁.length = 0 by omega]
      exact iff_of_true List.mem_cons_self hn
    · refine iff_of_false (fun hmem => ?_) hn
      obtain ⟨k, hk⟩ : ∃ k, l₁.length + (l₂.length + 1) - n - l₁.length = k + 1 := ⟨l₂.length - n, by omega⟩
      rw [hk, List.drop_succ_cons] at hmem
      exact lt_irrefl a (habove a (List.mem_of_mem_drop hmem))
  · exact iff_of_false (fun hmem => ha (List.mem_of_mem_drop hmem)) fun h => ha h.1

theorem foldl_max_le {α : Type} [LinearOrder α] {l : List α} {a n : α} :
    l.foldl max a ≤ n ↔ a ≤ n ∧ ∀ b ∈ l, b ≤ n := by
  induction l generalizing a with
  | nil => simp
  | cons b l ih => rw [List.foldl_cons, ih, max_le_iff, List.forall_mem_cons, and_assoc]

/-- Entries that can be told apart by what they are ordered by have one order. -/
theorem insertionSort_eq_of_perm {α β : Type} [LinearOrder β] {f : α → β} {l m : List α} (hperm : l.Perm m)
    (hnodup : (l.map f).Nodup) :
    l.insertionSort (fun a b => f a ≤ f b) = m.insertionSort fun a b => f a ≤ f b := by
  have _htrans : IsTrans α fun a b => f a ≤ f b := ⟨fun _ _ _ => le_trans⟩
  have _htotal : Std.Total fun a b : α => f a ≤ f b := ⟨fun _ _ => le_total _ _⟩
  have hsorted := (List.perm_insertionSort (fun a b => f a ≤ f b) l).trans
    (hperm.trans (List.perm_insertionSort (fun a b => f a ≤ f b) m).symm)
  refine hsorted.eq_of_pairwise (fun a b ha hb hab hba => ?_) (List.pairwise_insertionSort _ _)
    (List.pairwise_insertionSort _ _)
  have ha := (List.mem_insertionSort _).mp ha
  have hb := hperm.mem_iff.mpr ((List.mem_insertionSort _).mp hb)
  exact List.inj_on_of_nodup_map hnodup ha hb (le_antisymm hab hba)

theorem forall₂_of_mapM {α β : Type} {f : α → Option β} {l : List α} {l' : List β} (h : l.mapM f = some l') :
    List.Forall₂ (fun a b => f a = some b) l l' := by
  induction l generalizing l' with
  | nil => exact Option.some.inj h ▸ .nil
  | cons a l ih =>
    rw [List.mapM_cons] at h
    obtain ⟨b, hb, h⟩ := Option.bind_eq_some_iff.mp h
    obtain ⟨bs, hbs, h⟩ := Option.bind_eq_some_iff.mp h
    cases h
    exact .cons hb (ih hbs)

section
variable {α β γ δ : Type} {f : α → γ} {g : β → γ} {l : List α} {m : List β}

/-- Two lists that look alike still do after a change that agrees on entries that look alike. -/
theorem map_eq_map_of {f' : α → δ} {g' : β → δ} (h : l.map f = m.map g)
    (hchange : ∀ a ∈ l, ∀ b ∈ m, f a = g b → f' a = g' b) : l.map f' = m.map g' := by
  induction l generalizing m with
  | nil =>
    obtain rfl : m = [] := List.map_eq_nil_iff.mp h.symm
    rfl
  | cons a l ih =>
    obtain ⟨b, m, rfl, hb, hm⟩ := List.map_eq_cons_iff.mp h.symm
    have hrest := ih hm.symm fun a ha b hb => hchange a (List.mem_cons_of_mem _ ha) b (List.mem_cons_of_mem _ hb)
    rw [List.map_cons, List.map_cons, hchange a List.mem_cons_self b List.mem_cons_self hb.symm, hrest]

theorem filter_map_eq_of {p : α → Bool} {q : β → Bool} (h : l.map f = m.map g)
    (hkeep : ∀ a ∈ l, ∀ b ∈ m, f a = g b → p a = q b) : (l.filter p).map f = (m.filter q).map g := by
  induction l generalizing m with
  | nil =>
    obtain rfl : m = [] := List.map_eq_nil_iff.mp h.symm
    rfl
  | cons a l ih =>
    obtain ⟨b, m, rfl, hb, hm⟩ := List.map_eq_cons_iff.mp h.symm
    have hrest := ih hm.symm fun a ha b hb => hkeep a (List.mem_cons_of_mem _ ha) b (List.mem_cons_of_mem _ hb)
    rw [List.filter_cons, List.filter_cons, hkeep a List.mem_cons_self b List.mem_cons_self hb.symm]
    split
    · rw [List.map_cons, List.map_cons, hrest, hb]
    · exact hrest

theorem filterMap_eq_of {f' : α → Option δ} {g' : β → δ} (h : l.map f = m.map g)
    (hread : ∀ a ∈ l, ∀ b ∈ m, f a = g b → f' a = some (g' b)) : l.filterMap f' = m.map g' := by
  have hmap : l.map f' = m.map (some ∘ g') := map_eq_map_of h hread
  simpa [List.filterMap_map, Function.comp_def] using congrArg (List.filterMap id) hmap

/-- The first entry that satisfies a condition, and what is read of it. -/
theorem find?_bind_eq_of {p : α → Bool} {q : β → Bool} {f' : α → Option δ} {g' : β → Option δ} (h : l.map f = m.map g)
    (hkeep : ∀ a ∈ l, ∀ b ∈ m, f a = g b → p a = q b) (hread : ∀ a ∈ l, ∀ b ∈ m, f a = g b → f' a = g' b) :
    (l.find? p).bind f' = (m.find? q).bind g' := by
  have hfilter : (l.filter p).map f' = (m.filter q).map g' := map_eq_map_of (filter_map_eq_of h hkeep) fun a ha b hb =>
    hread a (List.mem_of_mem_filter ha) b (List.mem_of_mem_filter hb)
  have hhead := congrArg List.head? hfilter
  rw [List.head?_map, List.head?_map, List.head?_filter, List.head?_filter] at hhead
  simpa [Option.bind_map] using congrArg (·.bind id) hhead

theorem mapM_map_some {f : β → Option γ} {g : α → β} {f' : α → γ} (h : ∀ a, f (g a) = some (f' a)) :
    (l.map g).mapM f = some (l.map f') := by
  induction l with
  | nil => rfl
  | cons a l ih => rw [List.map_cons, List.mapM_cons, h, ih]; rfl

end

/-! ### Since -/

/-- Something in the list is `p`, and all after it are `q`. -/
def Since {α : Type} (p q : α → Prop) (l : List α) : Prop := ∃ l₁ a l₂, l = l₁ ++ a :: l₂ ∧ p a ∧ ∀ b ∈ l₂, q b

section
variable {α : Type} {p p' q q' : α → Prop} {l : List α} {a : α}

theorem not_since_nil : ¬Since p q ([] : List α) := by
  rintro ⟨_, _, _, heq, -⟩
  simp at heq

theorem since_concat : Since p q (l ++ [a]) ↔ p a ∨ Since p q l ∧ q a := by
  constructor
  · rintro ⟨l₁, b, l₂, heq, hb, hl₂⟩
    rcases append_cons_eq_concat heq.symm with ⟨rfl, rfl, rfl⟩ | ⟨l₂, rfl, rfl⟩
    · exact Or.inl hb
    · rw [List.forall_mem_append] at hl₂
      exact Or.inr ⟨⟨l₁, b, l₂, rfl, hb, hl₂.1⟩, hl₂.2 _ List.mem_cons_self⟩
  · rintro (ha | ⟨⟨l₁, b, l₂, rfl, hb, hl₂⟩, ha⟩)
    · exact ⟨l, a, [], rfl, ha, List.forall_mem_nil _⟩
    · exact ⟨l₁, b, l₂ ++ [a], by simp, hb, List.forall_mem_append.mpr ⟨hl₂, List.forall_mem_singleton.mpr ha⟩⟩

theorem since_of_mem (h : ∃ a ∈ l, p a) : Since p (fun a => ¬p a) l := by
  induction l using List.reverseRecOn with
  | nil => simp at h
  | append_singleton l a ih =>
    rw [since_concat]
    by_cases ha : p a
    · exact Or.inl ha
    · obtain ⟨b, hb, hpb⟩ := h
      rcases List.mem_append.mp hb with hb | hb
      · exact Or.inr ⟨ih ⟨b, hb, hpb⟩, ha⟩
      · exact absurd (List.mem_singleton.mp hb ▸ hpb) ha

/-- The last entry that is `p` is one. -/
theorem last_unique {l₁ l₂ m₁ m₂ : List α} {b : α} (heq : l₁ ++ a :: l₂ = m₁ ++ b :: m₂) (ha : p a) (hb : p b)
    (hl₂ : ∀ x ∈ l₂, ¬p x) (hm₂ : ∀ x ∈ m₂, ¬p x) : l₁ = m₁ ∧ a = b ∧ l₂ = m₂ := by
  rcases append_cons_cases heq with ⟨n, rfl, rfl⟩ | hsame | ⟨n, rfl, rfl⟩
  · exact absurd hb (hl₂ b (by simp))
  · exact hsame
  · exact absurd ha (hm₂ a (by simp))

theorem Since.mono (h : Since p q l) (hp : ∀ a ∈ l, p a → p' a) (hq : ∀ a ∈ l, q a → q' a) : Since p' q' l := by
  obtain ⟨l₁, a, l₂, rfl, ha, hl₂⟩ := h
  exact ⟨l₁, a, l₂, rfl, hp a (by simp) ha, fun b hb => hq b (by simp [hb]) (hl₂ b hb)⟩

end

/-! ### Entries of keys -/

theorem lookup_eq_some_iff_mem {κ ν : Type} [DecidableEq κ] {l : List (κ × ν)} {k : κ} {v : ν}
    (hnodup : (l.map (·.1)).Nodup) : l.lookup k = some v ↔ (k, v) ∈ l := by
  rw [List.lookup_eq_some_iff]
  constructor
  · rintro ⟨l₁, l₂, rfl, -⟩
    simp
  · intro hmem
    obtain ⟨l₁, l₂, rfl⟩ := List.append_of_mem hmem
    refine ⟨l₁, l₂, rfl, fun e he => bne_iff_ne.mpr ?_⟩
    rw [List.map_append, List.nodup_append] at hnodup
    exact (hnodup.2.2 e.1 (List.mem_map_of_mem he) k (by simp)).symm

/-- The entry of a key does not depend on the order, where no two entries have one key. -/
theorem lookup_of_perm {κ ν : Type} [DecidableEq κ] {l m : List (κ × ν)} {k : κ} (hperm : l.Perm m)
    (hnodup : (m.map (·.1)).Nodup) : l.lookup k = m.lookup k := by
  have hnodup' : (l.map (·.1)).Nodup := (hperm.map _).nodup_iff.mpr hnodup
  ext v
  rw [lookup_eq_some_iff_mem hnodup', lookup_eq_some_iff_mem hnodup, hperm.mem_iff]

end CoreSplitter
