import CoreSplitter.Lib.Bytes

/-! Lossy UTF-8 decoding, one byte at a time. A text is held as its UTF-8 bytes, so decoding keeps the
    well-formed sequences and puts U+FFFD for every maximal part of one that breaks off. -/

namespace CoreSplitter
namespace Utf8

/-! ### The decoder -/

/-- The bytes of U+FFFD. -/
def replacement : Bytes := [0xEF, 0xBF, 0xBD]

/-- Between characters, or inside one: the bytes seen, how many follow the next one, and the range the
    next one lies in. -/
inductive State
  | start
  | inside (seen : Bytes) (more : Nat) (lo hi : UInt8)
deriving DecidableEq, Repr

/-- A byte between characters: what it gives, and the state after it. -/
def first (b : UInt8) : Bytes × State :=
  if b < 0x80 then ([b], .start)
  else if 0xC2 ≤ b ∧ b ≤ 0xDF then ([], .inside [b] 0 0x80 0xBF)
  else if b = 0xE0 then ([], .inside [b] 1 0xA0 0xBF)
  else if b = 0xED then ([], .inside [b] 1 0x80 0x9F)
  else if 0xE1 ≤ b ∧ b ≤ 0xEF then ([], .inside [b] 1 0x80 0xBF)
  else if b = 0xF0 then ([], .inside [b] 2 0x90 0xBF)
  else if 0xF1 ≤ b ∧ b ≤ 0xF3 then ([], .inside [b] 2 0x80 0xBF)
  else if b = 0xF4 then ([], .inside [b] 2 0x80 0x8F)
  else (replacement, .start)

/-- A byte that does not continue the character ends it and is read again as a first byte. -/
def next : State → UInt8 → Bytes × State
  | .start, b => first b
  | .inside seen more lo hi, b =>
    if lo ≤ b ∧ b ≤ hi then
      match more with
      | 0 => (seen ++ [b], .start)
      | more + 1 => ([], .inside (seen ++ [b]) more 0x80 0xBF)
    else (replacement ++ (first b).1, (first b).2)

def decodeFrom : State → Bytes → Bytes
  | .start, [] => []
  | .inside .., [] => replacement
  | s, b :: rest => (next s b).1 ++ decodeFrom (next s b).2 rest

/-- `String::from_utf8_lossy`. -/
def lossy (p : Bytes) : Bytes := decodeFrom .start p

@[simp] theorem lossy_nil : lossy [] = [] := rfl

/-! ### Well-formed text -/

/-- A byte after the first one of a character. -/
def Tail (b : UInt8) : Prop := 0x80 ≤ b ∧ b ≤ 0xBF

/-- The byte sequence of one character. -/
inductive Char : Bytes → Prop
  | one {a : UInt8} : a < 0x80 → Char [a]
  | two {a b : UInt8} : 0xC2 ≤ a → a ≤ 0xDF → Tail b → Char [a, b]
  | three {a b c : UInt8} {lo hi : UInt8} : first a = ([], .inside [a] 1 lo hi) → lo ≤ b → b ≤ hi → Tail c →
      Char [a, b, c]
  | four {a b c d : UInt8} {lo hi : UInt8} : first a = ([], .inside [a] 2 lo hi) → lo ≤ b → b ≤ hi → Tail c →
      Tail d → Char [a, b, c, d]

/-- Well-formed UTF-8. -/
inductive WellFormed : Bytes → Prop
  | nil : WellFormed []
  | cons {c rest : Bytes} : Char c → WellFormed rest → WellFormed (c ++ rest)

/-- A character passes the decoder as it is. -/
theorem decodeFrom_char {c : Bytes} (hc : Char c) (rest : Bytes) :
    decodeFrom .start (c ++ rest) = c ++ decodeFrom .start rest := by
  cases hc with
  | one ha => simp [decodeFrom, next, first, ha]
  | two ha ha' hb =>
    rename_i a b
    have hlead : first a = ([], .inside [a] 0 0x80 0xBF) := by
      have : ¬a < 0x80 := by
        rw [UInt8.lt_iff_toNat_lt]
        rw [UInt8.le_iff_toNat_le] at ha
        simp at ha ⊢
        omega
      simp [first, this, ha, ha']
    simp [decodeFrom, next, hlead, hb.1, hb.2]
  | three ha hlo hhi hc =>
    simp [decodeFrom, next, ha, hlo, hhi, hc.1, hc.2]
  | four ha hlo hhi hc hd =>
    simp [decodeFrom, next, ha, hlo, hhi, hc.1, hc.2, hd.1, hd.2]

/-- Lossy decoding keeps well-formed text. -/
theorem lossy_eq_self {p : Bytes} (h : WellFormed p) : lossy p = p := by
  induction h with
  | nil => rfl
  | cons hc _ ih =>
    unfold lossy at ih ⊢
    rw [decodeFrom_char hc, ih]

example : lossy [0x61, 0xE2, 0x82, 0x62] = [0x61, 0xEF, 0xBF, 0xBD, 0x62] := by decide

end Utf8
end CoreSplitter
