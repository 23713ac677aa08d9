import Mathlib.Algebra.Group.Int.Defs
import Mathlib.Algebra.Group.Nat.Defs
import Mathlib.Data.List.DropRight

/-! Byte strings, and the two ways a program cuts them: between bounds it has checked, and between
    bounds it has not, where a wrong one ends the process. -/

namespace CoreSplitter

abbrev Bytes := List UInt8

/-- What ends the process: a slice or an index out of range. -/
inductive Panic
  | range (start stop len : Nat)
  | index (i len : Nat)
deriving DecidableEq, Repr

section
variable {ε α β : Type}

@[simp] theorem Except.bind_ok_eq {a : α} {f : α → Except ε β} : (Except.ok a >>= f) = f a := rfl
@[simp] theorem Except.bind_error_eq {e : ε} {f : α → Except ε β} :
    ((Except.error e : Except ε α) >>= f) = .error e := rfl
@[simp] theorem Except.map_ok_eq {a : α} {f : α → β} : (f <$> (Except.ok a : Except ε α)) = .ok (f a) := rfl
@[simp] theorem Except.map_error_eq {e : ε} {f : α → β} : (f <$> (Except.error e : Except ε α)) = .error e := rfl
@[simp] theorem Except.pure_eq {a : α} : (pure a : Except ε α) = .ok a := rfl

theorem Except.of_bind_eq_ok {x : Except ε α} {f : α → Except ε β} {b : β} (h : (x >>= f) = .ok b) :
    ∃ a, x = .ok a ∧ f a = .ok b := by
  cases x with
  | error e => cases h
  | ok a => exact ⟨a, rfl, h⟩

/-- The computation succeeds, with a result that satisfies `p`. -/
def Except.Holds (x : Except ε α) (p : α → Prop) : Prop := ∃ a, x = .ok a ∧ p a

instance {x : Except ε α} {p : α → Prop} [DecidablePred p] : Decidable (Except.Holds x p) :=
  match x with
  | .ok a => decidable_of_iff (p a) ⟨fun h => ⟨a, rfl, h⟩, fun ⟨_, heq, h⟩ => Except.ok.inj heq ▸ h⟩
  | .error _ => isFalse fun ⟨_, heq, _⟩ => nomatch heq

end

namespace Bytes

/-! ### Checked cuts -/

/-- `p[start..stop]` between bounds known to be in range. -/
def slice (p : Bytes) (start stop : Nat) (_ : start ≤ stop ∧ stop ≤ p.length) : Bytes :=
  (p.drop start).take (stop - start)

@[simp] theorem slice_length {p : Bytes} {start stop : Nat} (h : start ≤ stop ∧ stop ≤ p.length) :
    (slice p start stop h).length = stop - start := by
  simp only [slice, List.length_take, List.length_drop]
  omega

/-- The first `n` bytes, padded with zeros to `n`. -/
def field (n : Nat) (p : Bytes) : Bytes := p.take n ++ List.replicate (n - p.length) 0

@[simp] theorem field_length {n : Nat} {p : Bytes} : (field n p).length = n := by
  simp only [field, List.length_append, List.length_take, List.length_replicate]
  omega

theorem field_of_length {n : Nat} {p : Bytes} (h : p.length = n) : field n p = p := by
  simp [field, ← h]

/-! ### Unchecked cuts -/

/-- `&p[start..stop]`. -/
def tryRange (p : Bytes) (start stop : Nat) : Except Panic Bytes :=
  if h : start ≤ stop ∧ stop ≤ p.length then .ok (slice p start stop h)
  else .error (.range start stop p.length)

/-- `&p[start..]`. -/
def tryFrom (p : Bytes) (start : Nat) : Except Panic Bytes := tryRange p start p.length

/-- `p[i]`. -/
def tryIndex (p : Bytes) (i : Nat) : Except Panic UInt8 :=
  match p[i]? with
  | some b => .ok b
  | none => .error (.index i p.length)

theorem tryRange_ok {p : Bytes} {start stop : Nat} (h₁ : start ≤ stop) (h₂ : stop ≤ p.length) :
    tryRange p start stop = .ok (slice p start stop ⟨h₁, h₂⟩) := by
  simp [tryRange, h₁, h₂]

theorem tryRange_error {p : Bytes} {start stop : Nat} (h : p.length < stop) :
    tryRange p start stop = .error (.range start stop p.length) := by
  have : ¬stop ≤ p.length := by omega
  simp [tryRange, this]

theorem tryFrom_ok {p : Bytes} {start : Nat} (h : start ≤ p.length) :
    tryFrom p start = .ok (slice p start p.length ⟨h, Nat.le_refl _⟩) :=
  tryRange_ok h (Nat.le_refl _)

theorem tryIndex_ok {p : Bytes} {i : Nat} (h : i < p.length) : tryIndex p i = .ok p[i] := by
  simp [tryIndex, h]

/-! ### Little-endian integers -/

def leNat : Bytes → Nat
  | [] => 0
  | b :: rest => b.toNat + 256 * leNat rest

/-- The two's complement reading of `leNat`. -/
def leInt (p : Bytes) : Int :=
  if leNat p < 2 ^ (8 * p.length - 1) then leNat p else leNat p - 2 ^ (8 * p.length)

/-- The `k` little-endian bytes of `n`. -/
def toLe : (k : Nat) → (n : Nat) → Bytes
  | 0, _ => []
  | k + 1, n => UInt8.ofNat n :: toLe k (n / 256)

@[simp] theorem toLe_length : ∀ {k n : Nat}, (toLe k n).length = k
  | 0, _ => rfl
  | k + 1, n => by simp [toLe, toLe_length]

theorem leNat_toLe : ∀ {k n : Nat}, n < 256 ^ k → leNat (toLe k n) = n
  | 0, n, h => by simp_all [toLe, leNat]
  | k + 1, n, h => by
    have hdiv : n / 256 < 256 ^ k := Nat.div_lt_of_lt_mul (by rw [Nat.pow_succ] at h; omega)
    simp only [toLe, leNat, leNat_toLe hdiv, UInt8.toNat_ofNat']
    omega

/-! ### Text -/

/-- The UTF-8 bytes of a text written in the source. -/
def text (s : String) : Bytes := s.toList.flatMap String.utf8EncodeChar

def hexDigit (n : Nat) : UInt8 := UInt8.ofNat (if n < 10 then 48 + n else 87 + n)

/-- Two lower-case hexadecimal digits for each byte. -/
def hexEncode (p : Bytes) : Bytes :=
  p.flatMap fun b => [hexDigit (b.toNat / 16), hexDigit (b.toNat % 16)]

theorem hexEncode_length (p : Bytes) : (hexEncode p).length = 2 * p.length := by
  induction p with
  | nil => rfl
  | cons b rest ih =>
    simp only [hexEncode, List.flatMap_cons, List.length_append, List.length_cons, List.length_nil] at ih ⊢
    omega

/-- `trim_end_matches('\0')`: in UTF-8 a zero byte is the character NUL and nothing else. -/
def trimEndNul (p : Bytes) : Bytes := p.rdropWhile (· == 0)

/-- `p[..n]` for the first position `n` of a zero, or `p` when it has none: the text of a field that a
    NUL ends. -/
def untilNul (p : Bytes) : Bytes := p.takeWhile (· != 0)

theorem untilNul_of_notMem {p : Bytes} (h : 0 ∉ p) : untilNul p = p := by
  rw [untilNul, List.takeWhile_eq_self_iff]
  intro b hb
  simpa using fun heq : b = 0 => h (heq ▸ hb)

theorem untilNul_append_of_mem {p q : Bytes} (h : 0 ∈ p) : untilNul (p ++ q) = untilNul p := by
  obtain ⟨p₁, p₂, rfl⟩ := List.append_of_mem h
  induction p₁ with
  | nil => rfl
  | cons b p₁ ih =>
    rw [untilNul, untilNul, List.cons_append, List.cons_append, List.takeWhile_cons, List.takeWhile_cons]
    exact congrArg (fun r => if (b != 0) = true then b :: r else []) (ih (by simp))

theorem untilNul_append_of_notMem {p q : Bytes} (h : 0 ∉ p) : untilNul (p ++ q) = p ++ untilNul q :=
  List.takeWhile_append_of_pos fun b hb => by simpa using fun heq : b = 0 => h (heq ▸ hb)

/-- The position of the first zero, or `n` where there is none. -/
theorem take_nul (p : Bytes) (n : Nat) : p.take ((p.findIdx? (· == 0)).getD n) = if 0 ∈ p then untilNul p
    else p.take n := by
  cases hidx : p.findIdx? (· == 0) with
  | none =>
    have hno : 0 ∉ p := fun h => by simpa using List.findIdx?_eq_none_iff.mp hidx 0 h
    rw [if_neg hno, Option.getD_none]
  | some i =>
    have hmem : 0 ∈ p := by
      obtain ⟨hlt, hzero, -⟩ := List.findIdx?_eq_some_iff_getElem.mp hidx
      exact List.mem_of_getElem (by simpa using hzero)
    obtain rfl := List.findIdx?_eq_some_iff_findIdx_eq.mp hidx |>.2
    rw [if_pos hmem, Option.getD_some, untilNul, List.takeWhile_eq_take_findIdx_not]
    simp only [bne, Bool.not_not]

end Bytes
end CoreSplitter
