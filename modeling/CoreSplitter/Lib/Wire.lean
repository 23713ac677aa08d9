import Mathlib.Data.List.Basic

/-! A server at the other end of a line. It executes the requests it is sent one at a time and in order; its
    replies, and the frames it pushes unasked, come back in the order it emits them. -/

namespace CoreSplitter

namespace Wire

/-- What comes back: `request` is the request it replies to, none for a push. -/
structure Frame (τ φ : Type) where
  body : φ
  request : Option τ
  /-- No other reply to the request follows. -/
  last : Bool
deriving DecidableEq

end Wire

structure Wire (τ φ : Type) where
  /-- Sent, and not yet taken by the server. -/
  sent : List τ
  serving : Option τ
  /-- Emitted by the server, and not yet received. -/
  back : List (Wire.Frame τ φ)

namespace Wire
variable {τ φ : Type}

/-- A new line, on which `qs` was sent. -/
def fresh (qs : List τ) : Wire τ φ := ⟨qs, none, []⟩

def send (w : Wire τ φ) (qs : List τ) : Wire τ φ := { w with sent := w.sent ++ qs }

/-- The server has taken `q`, with `rest` sent after it. -/
def take (w : Wire τ φ) (q : τ) (rest : List τ) : Wire τ φ := { w with sent := rest, serving := some q }

def reply (w : Wire τ φ) (q : τ) (body : φ) (last : Bool) : Wire τ φ :=
  { w with serving := if last then none else some q, back := w.back ++ [⟨body, some q, last⟩] }

def push (w : Wire τ φ) (body : φ) : Wire τ φ := { w with back := w.back ++ [⟨body, none, false⟩] }

/-- The next frame was received, with `rest` behind it. -/
def receive (w : Wire τ φ) (rest : List (Frame τ φ)) : Wire τ φ := { w with back := rest }

/-- The requests that the server has not replied to in full. -/
def unserved (w : Wire τ φ) : List τ := w.serving.toList ++ w.sent

/-- The frames reply to requests of `qs` in order, each in full before the next; of `qs`, `rest` is not replied
    to in full. -/
inductive Answers : List (Frame τ φ) → List τ → List τ → Prop
  | nil (qs : List τ) : Answers [] qs qs
  | push {fs : List (Frame τ φ)} {qs rest : List τ} (body : φ) (last : Bool) (h : Answers fs qs rest) :
      Answers (⟨body, none, last⟩ :: fs) qs rest
  | part {fs : List (Frame τ φ)} {q : τ} {qs rest : List τ} (body : φ) (h : Answers fs (q :: qs) rest) :
      Answers (⟨body, some q, false⟩ :: fs) (q :: qs) rest
  | last {fs : List (Frame τ φ)} {q : τ} {qs rest : List τ} (body : φ) (h : Answers fs qs rest) :
      Answers (⟨body, some q, true⟩ :: fs) (q :: qs) rest

namespace Answers
variable {fs fs' : List (Frame τ φ)} {qs rest rest' : List τ} {q : τ} {body : φ}

theorem send (h : Answers fs qs rest) (new : List τ) : Answers fs (qs ++ new) (rest ++ new) := by
  induction h with
  | nil qs => exact .nil _
  | push body last _ ih => exact .push body last ih
  | part body _ ih => exact .part body ih
  | last body _ ih => exact .last body ih

theorem append (h : Answers fs qs rest) (h' : Answers fs' rest rest') : Answers (fs ++ fs') qs rest' := by
  induction h with
  | nil qs => exact h'
  | push body last _ ih => exact .push body last (ih h')
  | part body _ ih => exact .part body (ih h')
  | last body _ ih => exact .last body (ih h')

theorem emit_push (h : Answers fs qs rest) (last : Bool) : Answers (fs ++ [⟨body, none, last⟩]) qs rest :=
  h.append (.push body last (.nil rest))

theorem emit_part (h : Answers fs qs (q :: rest)) : Answers (fs ++ [⟨body, some q, false⟩]) qs (q :: rest) :=
  h.append (.part body (.nil _))

theorem emit_last (h : Answers fs qs (q :: rest)) : Answers (fs ++ [⟨body, some q, true⟩]) qs rest :=
  h.append (.last body (.nil rest))

/-- What the server has replied to in full comes first. -/
theorem prefix_eq (h : Answers fs qs rest) : ∃ done, qs = done ++ rest := by
  induction h with
  | nil qs => exact ⟨[], rfl⟩
  | push _ _ _ ih => exact ih
  | part _ _ ih => exact ih
  | @last fs q _ _ _ _ ih =>
    obtain ⟨done, rfl⟩ := ih
    exact ⟨q :: done, rfl⟩

theorem request_mem (h : Answers fs qs rest) {f : Frame τ φ} (hf : f ∈ fs) (hq : f.request = some q) : q ∈ qs := by
  induction h with
  | nil => cases hf
  | push _ _ _ ih =>
    rcases List.mem_cons.mp hf with rfl | hf
    · cases hq
    · exact ih hf
  | part _ _ ih =>
    rcases List.mem_cons.mp hf with rfl | hf
    · exact Option.some.inj hq ▸ List.mem_cons_self
    · exact ih hf
  | last _ _ ih =>
    rcases List.mem_cons.mp hf with rfl | hf
    · exact Option.some.inj hq ▸ List.mem_cons_self
    · exact List.mem_cons_of_mem _ (ih hf)

/-- The replies to the requests that satisfy `p`. -/
theorem filter (h : Answers fs qs rest) (p : τ → Bool) :
    Answers (fs.filter fun f => f.request.any p) (qs.filter p) (rest.filter p) := by
  induction h with
  | nil qs => exact .nil _
  | push body last _ ih => exact ih
  | @part fs q qs rest body _ ih =>
    cases hq : p q with
    | true =>
      simp only [List.filter_cons, hq, if_true] at ih
      simpa [List.filter_cons, hq] using Answers.part body ih
    | false => simpa [List.filter_cons, hq] using ih
  | @last fs q qs rest body _ ih =>
    cases hq : p q with
    | true => simpa [List.filter_cons, hq] using Answers.last (q := q) body ih
    | false => simpa [List.filter_cons, hq] using ih

end Answers

/-! ### What the line owes -/

/-- `qs` are the requests whose last reply was not received yet. -/
def Owes (w : Wire τ φ) (qs : List τ) : Prop := Answers w.back qs w.unserved

namespace Owes
variable {w : Wire τ φ} {qs rest : List τ} {q : τ}

theorem fresh : (Wire.fresh qs : Wire τ φ).Owes qs := .nil qs

theorem send (h : w.Owes qs) (new : List τ) : (w.send new).Owes (qs ++ new) := by
  have hunserved : (w.send new).unserved = w.unserved ++ new := (List.append_assoc ..).symm
  unfold Owes
  rw [hunserved]
  exact Answers.send h new

theorem take (h : w.Owes qs) (hsent : w.sent = q :: rest) (hfree : w.serving = none) : (w.take q rest).Owes qs := by
  have hunserved : (w.take q rest).unserved = w.unserved := by simp [unserved, Wire.take, hsent, hfree]
  unfold Owes
  rw [hunserved]
  exact h

theorem reply (h : w.Owes qs) (hserving : w.serving = some q) (body : φ) (last : Bool) :
    (w.reply q body last).Owes qs := by
  have hunserved : w.unserved = q :: w.sent := by simp [unserved, hserving]
  unfold Owes at h ⊢
  rw [hunserved] at h
  cases last with
  | true => exact h.emit_last
  | false => exact h.emit_part

theorem push (h : w.Owes qs) (body : φ) : (w.push body).Owes qs := Answers.emit_push h false

/-- What a frame is, that is received now. -/
theorem received {f : Frame τ φ} {fs : List (Frame τ φ)} (h : w.Owes qs) (hback : w.back = f :: fs) :
    (f.request = none ∧ (w.receive fs).Owes qs) ∨
    (∃ q rest, qs = q :: rest ∧ f.request = some q ∧ f.last = false ∧ (w.receive fs).Owes qs) ∨
    (∃ q rest, qs = q :: rest ∧ f.request = some q ∧ f.last = true ∧ (w.receive fs).Owes rest) := by
  unfold Owes at h
  rw [hback] at h
  cases h with
  | push _ _ h => exact Or.inl ⟨rfl, h⟩
  | part _ h => exact Or.inr (Or.inl ⟨_, _, rfl, rfl, rfl, h⟩)
  | last _ h => exact Or.inr (Or.inr ⟨_, _, rfl, rfl, rfl, h⟩)

theorem unserved_suffix (h : w.Owes qs) : ∃ done, qs = done ++ w.unserved := Answers.prefix_eq h

theorem request_mem {f : Frame τ φ} (h : w.Owes qs) (hf : f ∈ w.back) (hq : f.request = some q) : q ∈ qs :=
  Answers.request_mem h hf hq

end Owes
end Wire
end CoreSplitter
