import Mathlib.Data.List.Basic

/-! Steps that may be broken off anywhere and begun anew: what is done stays done, and is not done twice. -/

namespace CoreSplitter

/-- After a step it is done, no step undoes another, and a step that is done does nothing. -/
structure Ladder {σ ι : Type} (run : σ → ι → Option σ) (done : ι → σ → Prop) : Prop where
  does : ∀ {s t i}, run s i = some t → done i t
  keeps : ∀ {s t i j}, done i s → run s j = some t → done i t
  rests : ∀ {s i}, done i s → run s i = some s

section
variable {σ τ ι : Type} {run : σ → ι → Option σ} {done : ι → σ → Prop} {s t : σ} {i : ι} {is js : List ι}

/-- What each step keeps holds after all of them. -/
theorem foldlM_keeps {P : σ → Prop} (hstep : ∀ i ∈ is, ∀ s t, P s → run s i = some t → P t) (hs : P s)
    (hrun : is.foldlM run s = some t) : P t := by
  induction is generalizing s with
  | nil => exact Option.some.inj hrun ▸ hs
  | cons i is ih =>
    obtain ⟨hi, his⟩ := List.forall_mem_cons.mp hstep
    rw [List.foldlM_cons] at hrun
    obtain ⟨s', hrun₁, hrun⟩ := Option.bind_eq_some_iff.mp hrun
    exact ih his (hi s s' hs hrun₁) hrun

/-- No step fails, where each keeps what lets the next succeed. -/
theorem foldlM_progress {P : σ → Prop} (hstep : ∀ i ∈ is, ∀ s, P s → ∃ t, run s i = some t ∧ P t) (hs : P s) :
    ∃ t, is.foldlM run s = some t ∧ P t := by
  induction is generalizing s with
  | nil => exact ⟨s, rfl, hs⟩
  | cons i is ih =>
    obtain ⟨hi, his⟩ := List.forall_mem_cons.mp hstep
    obtain ⟨s', hrun, hs'⟩ := hi s hs
    obtain ⟨t, hruns, ht⟩ := ih his hs'
    exact ⟨t, by rw [List.foldlM_cons, hrun]; exact hruns, ht⟩

/-- No step fails that has a counterpart, and the states correspond afterwards. -/
theorem foldlM_simulates {R : σ → τ → Prop} {g : τ → ι → τ}
    (hstep : ∀ {s x} i, R s x → ∃ t, run s i = some t ∧ R t (g x i)) {x : τ} (h : R s x) :
    ∃ t, is.foldlM run s = some t ∧ R t (is.foldl g x) := by
  induction is generalizing s x with
  | nil => exact ⟨s, rfl, h⟩
  | cons i is ih =>
    obtain ⟨s', hrun, h'⟩ := hstep i h
    obtain ⟨t, hruns, ht⟩ := ih h'
    exact ⟨t, by rw [List.foldlM_cons, hrun]; exact hruns, ht⟩

namespace Ladder

theorem keeps_all (h : Ladder run done) (hdone : done i s) (hrun : is.foldlM run s = some t) : done i t :=
  foldlM_keeps (fun _ _ _ _ => h.keeps) hdone hrun

theorem does_all (h : Ladder run done) (hrun : is.foldlM run s = some t) : ∀ i ∈ is, done i t := by
  induction is generalizing s with
  | nil => simp
  | cons j is ih =>
    rw [List.foldlM_cons] at hrun
    obtain ⟨s', hstep, hrun⟩ := Option.bind_eq_some_iff.mp hrun
    exact List.forall_mem_cons.mpr ⟨h.keeps_all (h.does hstep) hrun, ih hrun⟩

theorem rests_all (h : Ladder run done) (hdone : ∀ i ∈ is, done i s) : is.foldlM run s = some s := by
  induction is with
  | nil => rfl
  | cons j is ih =>
    obtain ⟨hj, his⟩ := List.forall_mem_cons.mp hdone
    rw [List.foldlM_cons, h.rests hj]
    exact ih his

/-- Steps that were broken off lead where they would have led. -/
theorem resume (h : Ladder run done) (hrun : is.foldlM run s = some t) :
    (is ++ js).foldlM run t = (is ++ js).foldlM run s := by
  rw [List.foldlM_append, List.foldlM_append, hrun, h.rests_all (h.does_all hrun)]

/-- However often they were broken off. -/
theorem resume_all (h : Ladder run done) {ns : List Nat}
    (hruns : ns.foldlM (fun s n => (is.take n).foldlM run s) s = some t) :
    is.foldlM run t = is.foldlM run s := by
  induction ns generalizing s with
  | nil => rw [show s = t from Option.some.inj hruns]
  | cons n ns ih =>
    rw [List.foldlM_cons] at hruns
    obtain ⟨s', hrun, hruns⟩ := Option.bind_eq_some_iff.mp hruns
    have hresume : (is.take n ++ is.drop n).foldlM run s' = (is.take n ++ is.drop n).foldlM run s := h.resume hrun
    rw [List.take_append_drop] at hresume
    exact (ih hruns).trans hresume

end Ladder
end
end CoreSplitter
