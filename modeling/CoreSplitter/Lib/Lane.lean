import Mathlib.Data.List.Induction
import Mathlib.Data.List.Nodup

/-! A line in front of a single server. Entries are submitted at its end, the server takes the first of it,
    and an entry leaves for good either out of the line or out of the server. An entry submitted while the
    server is free may go to the front; a line is orderly when that happens only to an empty line. -/

namespace CoreSplitter

structure Lane (τ : Type) where
  waiting : List τ
  serving : Option τ

namespace Lane
variable {τ : Type}

inductive Event (τ : Type)
  | submit (x : τ)
  | start (x : τ)
  | drop (x : τ)
  | finish (x : τ)

inductive Step (orderly : Prop) : Lane τ → Event τ → Lane τ → Prop
  | submit {w : List τ} {s : Option τ} (x : τ) : Step orderly ⟨w, s⟩ (.submit x) ⟨w ++ [x], s⟩
  | jump {w : List τ} (x : τ) (h : orderly → w = []) : Step orderly ⟨w, none⟩ (.submit x) ⟨x :: w, none⟩
  | start {x : τ} {w : List τ} : Step orderly ⟨x :: w, none⟩ (.start x) ⟨w, some x⟩
  | drop {x : τ} {w : List τ} {s : Option τ} : Step orderly ⟨x :: w, s⟩ (.drop x) ⟨w, s⟩
  | finish {x : τ} {w : List τ} : Step orderly ⟨w, some x⟩ (.finish x) ⟨w, none⟩

inductive Run (orderly : Prop) : Lane τ → List (Event τ) → Lane τ → Prop
  | refl (l : Lane τ) : Run orderly l [] l
  | step {l l₁ l₂ : Lane τ} {es : List (Event τ)} {e : Event τ} :
      Run orderly l es l₁ → Step orderly l₁ e l₂ → Run orderly l (es ++ [e]) l₂

def empty : Lane τ := ⟨[], none⟩

/-- The entries that have not left. -/
def present (l : Lane τ) : List τ := l.waiting ++ l.serving.toList

def submitted (es : List (Event τ)) : List τ :=
  es.filterMap fun | .submit x => some x | _ => none

def started (es : List (Event τ)) : List τ :=
  es.filterMap fun | .start x => some x | _ => none

def dropped (es : List (Event τ)) : List τ :=
  es.filterMap fun | .drop x => some x | _ => none

def finished (es : List (Event τ)) : List τ :=
  es.filterMap fun | .finish x => some x | _ => none

def left (es : List (Event τ)) : List τ :=
  es.filterMap fun | .drop x | .finish x => some x | _ => none

section
variable {es es' : List (Event τ)} {x : τ}

@[simp] theorem submitted_append : submitted (es ++ es') = submitted es ++ submitted es' := List.filterMap_append
@[simp] theorem started_append : started (es ++ es') = started es ++ started es' := List.filterMap_append
@[simp] theorem dropped_append : dropped (es ++ es') = dropped es ++ dropped es' := List.filterMap_append
@[simp] theorem finished_append : finished (es ++ es') = finished es ++ finished es' := List.filterMap_append
@[simp] theorem left_append : left (es ++ es') = left es ++ left es' := List.filterMap_append
@[simp] theorem submitted_submit : submitted [.submit x] = [x] := rfl
@[simp] theorem submitted_start : submitted [.start x] = [] := rfl
@[simp] theorem submitted_drop : submitted [.drop x] = [] := rfl
@[simp] theorem submitted_finish : submitted [.finish x] = [] := rfl
@[simp] theorem started_submit : started [.submit x] = [] := rfl
@[simp] theorem started_start : started [.start x] = [x] := rfl
@[simp] theorem started_drop : started [.drop x] = [] := rfl
@[simp] theorem started_finish : started [.finish x] = [] := rfl
@[simp] theorem dropped_submit : dropped [.submit x] = [] := rfl
@[simp] theorem dropped_start : dropped [.start x] = [] := rfl
@[simp] theorem dropped_drop : dropped [.drop x] = [x] := rfl
@[simp] theorem dropped_finish : dropped [.finish x] = [] := rfl
@[simp] theorem finished_submit : finished [.submit x] = [] := rfl
@[simp] theorem finished_start : finished [.start x] = [] := rfl
@[simp] theorem finished_drop : finished [.drop x] = [] := rfl
@[simp] theorem finished_finish : finished [.finish x] = [x] := rfl
@[simp] theorem left_submit : left [.submit x] = [] := rfl
@[simp] theorem left_start : left [.start x] = [] := rfl
@[simp] theorem left_drop : left [.drop x] = [x] := rfl
@[simp] theorem left_finish : left [.finish x] = [x] := rfl

theorem mem_left : x ∈ left es ↔ x ∈ dropped es ∨ x ∈ finished es := by
  simp only [left, dropped, finished, List.mem_filterMap]
  constructor
  · rintro ⟨e, he, hx⟩
    cases e with
    | drop y => exact Or.inl ⟨_, he, hx⟩
    | finish y => exact Or.inr ⟨_, he, hx⟩
    | submit | start => cases hx
  · rintro (⟨e, he, hx⟩ | ⟨e, he, hx⟩)
    · cases e with
      | drop y => exact ⟨_, he, hx⟩
      | submit | start | finish => cases hx
    · cases e with
      | finish y => exact ⟨_, he, hx⟩
      | submit | start | drop => cases hx

end

/-! ### Runs -/

section
variable {p : Prop} {l l₁ l₂ : Lane τ} {es es₁ es₂ : List (Event τ)} {e : Event τ} {x : τ}

theorem Run.one (h : Step p l e l₁) : Run p l [e] l₁ := .step (.refl l) h

theorem Run.trans (h₁ : Run p l es₁ l₁) (h₂ : Run p l₁ es₂ l₂) : Run p l (es₁ ++ es₂) l₂ := by
  induction h₂ with
  | refl => simpa using h₁
  | step _ hs ih => rw [← List.append_assoc]; exact ih.step hs

theorem Run.last (h : Run p l (es ++ [e]) l₂) : ∃ l₁, Run p l es l₁ ∧ Step p l₁ e l₂ := by
  generalize hes : es ++ [e] = es' at h
  cases h with
  | refl => simp at hes
  | step hr hs =>
    obtain ⟨rfl, he⟩ := List.append_inj' hes rfl
    obtain rfl := List.singleton_inj.mp he
    exact ⟨_, hr, hs⟩

theorem Run.before (h : Run p l (es₁ ++ es₂) l₂) : ∃ l₁, Run p l es₁ l₁ := by
  induction es₂ using List.reverseRecOn generalizing l₂ with
  | nil => exact ⟨l₂, by simpa using h⟩
  | append_singleton es₂ e ih =>
    rw [← List.append_assoc] at h
    obtain ⟨l₁, hr, -⟩ := h.last
    exact ih hr

theorem Run.split (h : Run p l (es₁ ++ es₂) l₂) : ∃ l₁, Run p l es₁ l₁ ∧ Run p l₁ es₂ l₂ := by
  induction es₂ using List.reverseRecOn generalizing l₂ with
  | nil => exact ⟨l₂, by simpa using h, .refl l₂⟩
  | append_singleton es₂ e ih =>
    rw [← List.append_assoc] at h
    obtain ⟨l₃, hr, hs⟩ := h.last
    obtain ⟨l₁, hfirst, hrest⟩ := ih hr
    exact ⟨l₁, hfirst, hrest.step hs⟩

theorem Run.eq_of_nil (h : Run p l es l₁) (hes : es = []) : l₁ = l := by
  cases h with
  | refl => rfl
  | step => simp at hes

/-- What happens to an orderly line decides what becomes of it. -/
theorem Step.unique (h₁ : Step True l e l₁) (h₂ : Step True l e l₂) : l₁ = l₂ := by
  cases h₁ with
  | submit x =>
    cases h₂ with
    | submit => rfl
    | jump _ hw =>
      obtain rfl := hw trivial
      rfl
  | jump x hw =>
    obtain rfl := hw trivial
    cases h₂ <;> rfl
  | start =>
    cases h₂
    rfl
  | drop =>
    cases h₂
    rfl
  | finish =>
    cases h₂
    rfl

theorem Run.unique (h₁ : Run True l es l₁) (h₂ : Run True l es l₂) : l₁ = l₂ := by
  induction es using List.reverseRecOn generalizing l₁ l₂ with
  | nil => rw [h₁.eq_of_nil rfl, h₂.eq_of_nil rfl]
  | append_singleton es e ih =>
    obtain ⟨l₃, hr₁, hs₁⟩ := h₁.last
    obtain ⟨l₄, hr₂, hs₂⟩ := h₂.last
    obtain rfl := ih hr₁ hr₂
    exact hs₁.unique hs₂

/-! ### Each entry is in one place -/

section
variable [DecidableEq τ]

theorem Run.count_present (h : Run p l es l₁) (x : τ) :
    (present l).count x + (submitted es).count x = (present l₁).count x + (left es).count x := by
  induction h with
  | refl => simp [submitted, left]
  | step _ hs ih =>
    cases hs <;> simp only [present, submitted_append, left_append, List.count_append, Option.toList_none,
      Option.toList_some, List.count_cons, List.count_nil, submitted_submit, submitted_start, submitted_drop,
      submitted_finish, left_submit, left_start, left_drop, left_finish] at ih ⊢ <;> omega

theorem Run.count_waiting (h : Run p l es l₁) (x : τ) :
    l.waiting.count x + (submitted es).count x =
      l₁.waiting.count x + (started es).count x + (dropped es).count x := by
  induction h with
  | refl => simp [submitted, started, dropped]
  | step _ hs ih =>
    cases hs <;> simp only [submitted_append, started_append, dropped_append, List.count_append, List.count_cons,
      List.count_nil, submitted_submit, submitted_start, submitted_drop, submitted_finish, started_submit,
      started_start, started_drop, started_finish, dropped_submit, dropped_start, dropped_drop,
      dropped_finish] at ih ⊢ <;> omega

theorem Run.submitted_of_left (h : Run p empty es l) (hx : x ∈ left es) : x ∈ submitted es := by
  have hcount := h.count_present x
  have hleft := List.count_pos_iff.mpr hx
  simp only [present, empty, Option.toList_none, List.append_nil, List.count_nil] at hcount
  exact List.count_pos_iff.mp (by omega)

theorem Run.submitted_of_started (h : Run p empty es l) (hx : x ∈ started es) : x ∈ submitted es := by
  have hcount := h.count_waiting x
  have hstarted := List.count_pos_iff.mpr hx
  simp only [empty, List.count_nil] at hcount
  exact List.count_pos_iff.mp (by omega)

/-- An entry in the line has neither been taken nor dropped, and is there once. -/
theorem Run.untouched_of_waiting (h : Run p empty es l) (hnodup : (submitted es).Nodup) {w w' : List τ}
    (hw : l.waiting = w ++ x :: w') : x ∉ started es ∧ x ∉ dropped es ∧ x ∉ w ∧ x ∉ w' := by
  have hcount := h.count_waiting x
  have hone := List.nodup_iff_count_le_one.mp hnodup x
  simp only [empty, hw, List.count_nil, List.count_append, List.count_cons_self] at hcount
  refine ⟨?_, ?_, ?_, ?_⟩ <;> exact List.count_eq_zero.mp (by omega)

end

/-! ### One at a time -/

/-- What the server held and takes is what it finishes and still holds. -/
theorem Run.balance (h : Run p l es l₁) : l.serving.toList ++ started es = finished es ++ l₁.serving.toList := by
  induction h with
  | refl => rw [show started ([] : List (Event τ)) = [] from rfl, List.append_nil]; rfl
  | step _ hs ih =>
    rw [started_append, finished_append, ← List.append_assoc, ih]
    cases hs <;> simp

/-- What the server has taken is finished, or the server still holds it. -/
theorem Run.finished_of_started (h : Run p empty es l) (hx : x ∈ started es) :
    x ∈ finished es ∨ l.serving = some x := by
  induction h with
  | refl => cases hx
  | step hr hs ih =>
    rw [started_append, List.mem_append] at hx
    rw [finished_append, List.mem_append]
    cases hs with
    | submit | drop => exact (ih (by simpa using hx)).imp_left Or.inl
    | jump => exact (ih (by simpa using hx)).imp_left Or.inl
    | start =>
      rcases hx with hx | hx
      · exact (ih hx).elim (fun h => Or.inl (Or.inl h)) nofun
      · exact Or.inr (congrArg some (List.mem_singleton.mp hx).symm)
    | finish =>
      rcases ih (by simpa using hx) with h | h
      · exact Or.inl (Or.inl h)
      · exact Or.inl (Or.inr (List.mem_singleton.mpr (Option.some.inj h).symm))

/-- The server takes an entry only once those it took before are finished. -/
theorem Run.finished_before_start (h : Run p empty (es₁ ++ .start x :: es₂) l) :
    ∀ y ∈ started es₁, y ∈ finished es₁ := by
  intro y hy
  rw [show es₁ ++ .start x :: es₂ = es₁ ++ [.start x] ++ es₂ by simp] at h
  obtain ⟨l₂, h⟩ := h.before
  obtain ⟨l₁, hr, hs⟩ := h.last
  cases hs with
  | start => exact (hr.finished_of_started hy).resolve_right nofun

/-! ### First come, first served -/

section
variable [DecidableEq τ]

/-- The server takes entries in the order they were submitted, leaving out those that were dropped, and the
    others still wait in that order. -/
theorem Run.order (h : Run True empty es l) (hnodup : (submitted es).Nodup) :
    started es ++ l.waiting = (submitted es).filter fun x => decide (x ∉ dropped es) := by
  induction h with
  | refl => rfl
  | @step l₁ l₂ es e hr hs ih =>
    have hn : (submitted es).Nodup := by
      rw [submitted_append] at hnodup
      exact (List.nodup_append.mp hnodup).1
    have ih := ih hn
    -- A new entry was not dropped before, so the filter keeps it at the end.
    have hnew {x : τ} (hs : submitted (es ++ [e]) = submitted es ++ [x]) : x ∉ dropped es := fun hx => by
      rw [hs] at hnodup
      have hsub := hr.submitted_of_left (mem_left.mpr (Or.inl hx))
      exact (List.nodup_append.mp hnodup).2.2 x hsub x (List.mem_singleton.mpr rfl) rfl
    cases hs with
    | submit x =>
      have := hnew (x := x) (by simp)
      simp only [started_append, started_submit, submitted_append, submitted_submit, dropped_append, dropped_submit,
        List.append_nil, List.filter_append, ← ih]
      simp [this]
    | jump x hw =>
      have := hnew (x := x) (by simp)
      simp only [started_append, started_submit, submitted_append, submitted_submit, dropped_append, dropped_submit,
        List.append_nil, List.filter_append, ← ih]
      simp [this, hw trivial]
    | @start x w =>
      simp only [started_append, started_start, submitted_append, submitted_start, dropped_append, dropped_start,
        List.append_nil, List.append_assoc, List.singleton_append, ih]
    | @drop x w s =>
      obtain ⟨hstarted, -, -, hw⟩ := hr.untouched_of_waiting hn (w := []) rfl
      have hkept : started es ++ w = (started es ++ x :: w).filter (· ≠ x) := by
        simp only [List.filter_append, List.filter_cons_of_neg, decide_not, decide_true, Bool.not_true,
          Bool.false_eq_true, not_false_eq_true]
        rw [List.filter_eq_self.mpr (by simpa using fun y hy => ne_of_mem_of_not_mem hy hstarted),
          List.filter_eq_self.mpr (by simpa using fun y hy => ne_of_mem_of_not_mem hy hw)]
      simp only [started_append, started_drop, submitted_append, submitted_drop, dropped_append, dropped_drop,
        List.append_nil]
      rw [hkept, show started es ++ x :: w = _ from ih, List.filter_filter]
      refine List.filter_congr fun y _ => ?_
      by_cases hy : y = x <;> simp [hy]
    | @finish x w =>
      simp only [started_append, started_finish, submitted_append, submitted_finish, dropped_append, dropped_finish,
        List.append_nil]
      exact ih

/-! ### How long an entry waits -/

/-- How many entries have to leave before `x` is served. -/
def ahead (l : Lane τ) (x : τ) : Nat := if l.serving = some x then 0 else l.serving.toList.length + l.waiting.idxOf x

/-- No entry overtakes `x` as long as it stays. -/
theorem Step.ahead_le (h : Step True l e l₁) (hx : x ∈ l.present) (hstays : x ∉ left [e]) :
    x ∈ l₁.present ∧ l₁.ahead x + (finished [e]).length ≤ l.ahead x := by
  cases h with
  | @submit w s y =>
    refine ⟨by simp only [present, List.mem_append] at hx ⊢; tauto, ?_⟩
    simp only [ahead, finished_submit, List.length_nil, Nat.add_zero]
    split
    · exact Nat.le_refl _
    · rename_i hserving
      have hw : x ∈ w := by
        refine (List.mem_append.mp hx).resolve_right fun h => hserving ?_
        exact Option.mem_toList.mp h
      exact Nat.le_of_eq (by rw [List.idxOf_append_of_mem hw])
  | jump y hw =>
    obtain rfl := hw trivial
    exact absurd hx List.not_mem_nil
  | @start y w =>
    refine ⟨by simpa [present, or_comm, eq_comm] using hx, ?_⟩
    by_cases hy : y = x
    · simp [ahead, hy]
    · simp [ahead, hy, Nat.add_comm]
  | @drop y w s =>
    have hy : x ≠ y := by simpa using hstays
    refine ⟨by simpa [present, hy] using hx, ?_⟩
    simp only [ahead, finished_drop, List.length_nil, Nat.add_zero]
    split
    · exact Nat.le_refl _
    · rw [List.idxOf_cons_ne _ (Ne.symm hy)]
      omega
  | @finish y w =>
    have hy : x ≠ y := by simpa using hstays
    refine ⟨by simpa [present, hy] using hx, ?_⟩
    simp [ahead, Ne.symm hy, Nat.add_comm]

/-- While `x` stays, no more entries are finished than were ahead of it. -/
theorem Run.ahead_le (h : Run True l es l₁) (hx : x ∈ l.present) (hstays : x ∉ left es) :
    x ∈ l₁.present ∧ l₁.ahead x + (finished es).length ≤ l.ahead x := by
  induction h with
  | refl => exact ⟨hx, Nat.le_refl _⟩
  | step _ hs ih =>
    rw [left_append, List.mem_append, not_or] at hstays
    obtain ⟨hx₁, hle⟩ := ih hstays.1
    obtain ⟨hx₂, hle'⟩ := hs.ahead_le hx₁ hstays.2
    rw [finished_append, List.length_append]
    exact ⟨hx₂, by omega⟩

end
end
end Lane
end CoreSplitter
