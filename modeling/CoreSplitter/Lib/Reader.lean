import Mathlib.Data.List.Basic

/-! Reading items off a stream that arrives in pieces. -/

namespace CoreSplitter

/-- How the next item is read off a stream, if enough of it has arrived. A step may also pass over a part of
    the stream that gives no item. -/
structure Reader (α β : Type) where
  next : List α → Option (Option β × List α)
  shrinks : ∀ {s x rest}, next s = some (x, rest) → rest.length < s.length
  /-- What arrives later changes no item. -/
  stable : ∀ {s x rest} t, next s = some (x, rest) → next (s ++ t) = some (x, rest ++ t)

namespace Reader
variable {α β : Type} (R : Reader α β)

/-- The items of a stream, and the tail that has not arrived in full. -/
def readAll (s : List α) : List β × List α :=
  match h : R.next s with
  | none => ([], s)
  | some (x, rest) =>
    have := R.shrinks h
    (x.toList ++ (readAll rest).1, (readAll rest).2)
termination_by s.length

variable {R} {s t rest : List α} {x : Option β}

theorem readAll_of_none (h : R.next s = none) : R.readAll s = ([], s) := by
  rw [readAll]
  split
  · rfl
  · rename_i h'
    cases h.symm.trans h'

theorem readAll_of_some (h : R.next s = some (x, rest)) :
    R.readAll s = (x.toList ++ (R.readAll rest).1, (R.readAll rest).2) := by
  rw [readAll]
  split
  · rename_i h'
    cases h.symm.trans h'
  · rename_i h'
    cases h.symm.trans h'
    rfl

/-- What is left has no item. -/
theorem next_tail : R.next (R.readAll s).2 = none := by
  induction s using readAll.induct R with
  | case1 s h => rwa [readAll_of_none h]
  | case2 s x rest h _ ih => rwa [readAll_of_some h]

/-- Reading a stream is reading a first part, and then what that left together with the rest. -/
theorem readAll_append : R.readAll (s ++ t) =
    ((R.readAll s).1 ++ (R.readAll ((R.readAll s).2 ++ t)).1, (R.readAll ((R.readAll s).2 ++ t)).2) := by
  induction s using readAll.induct R with
  | case1 s h => rw [readAll_of_none h, List.nil_append]
  | case2 s x rest h _ ih =>
    rw [readAll_of_some h, readAll_of_some (R.stable t h), ih, List.append_assoc]

/-- What holds of each item that is read holds of all of a stream. -/
theorem forall_mem_readAll {P : β → Prop} (h : ∀ {s rest x}, R.next s = some (some x, rest) → P x) :
    ∀ x ∈ (R.readAll s).1, P x := by
  induction s using readAll.induct R with
  | case1 s hnone =>
    rw [readAll_of_none hnone]
    exact List.forall_mem_nil _
  | case2 s x rest hnext _ ih =>
    rw [readAll_of_some hnext]
    intro y hy
    rcases List.mem_append.mp hy with hy | hy
    · obtain rfl := Option.mem_toList.mp hy
      exact h hnext
    · exact ih y hy

/-! ### Chunks -/

variable {tail : List α} {chunks : List (List α)}

variable (R) in
/-- The items of a stream that arrives in chunks, when `tail` is left of what arrived before. -/
def readChunks (tail : List α) : List (List α) → List β × List α
  | [] => ([], tail)
  | chunk :: rest =>
    let r := R.readAll (tail ++ chunk)
    (r.1 ++ (readChunks r.2 rest).1, (readChunks r.2 rest).2)

/-- It does not matter how a stream is cut. -/
theorem readChunks_eq (h : R.next tail = none) : R.readChunks tail chunks = R.readAll (tail ++ chunks.flatten) := by
  induction chunks generalizing tail with
  | nil => rw [List.flatten_nil, List.append_nil, readAll_of_none h, readChunks]
  | cons chunk rest ih =>
    rw [readChunks, ih next_tail, List.flatten_cons, ← List.append_assoc, readAll_append (s := tail ++ chunk)]

end Reader
end CoreSplitter
