import CoreSplitter.Node.State

/-! What a client connecting for the first time gets replayed, as it is written in the configuration. A string is
    the list of its characters. -/

namespace CoreSplitter

/-! ### Reading a number -/

/-- `char::is_whitespace`: the Unicode property White_Space. -/
def isWhitespace (c : Char) : Bool :=
  (0x09 ≤ c.toNat && c.toNat ≤ 0x0D) || c.toNat == 0x20 || c.toNat == 0x85 || c.toNat == 0xA0 || c.toNat == 0x1680 ||
    (0x2000 ≤ c.toNat && c.toNat ≤ 0x200A) || c.toNat == 0x2028 || c.toNat == 0x2029 || c.toNat == 0x202F ||
    c.toNat == 0x205F || c.toNat == 0x3000

/-- `str::trim`. -/
def trim (s : List Char) : List Char := (s.dropWhile isWhitespace).rdropWhile isWhitespace

/-- The digits of a `u32`; what overflows is an error. -/
def parseDigits : Nat → List Char → Option Nat
  | n, [] => some n
  | n, c :: rest =>
    if c.isDigit ∧ n * 10 + (c.toNat - 48) < 2 ^ 32 then parseDigits (n * 10 + (c.toNat - 48)) rest else none

/-- `str::parse::<u32>`: a plus sign may lead, and at least one digit must follow. -/
def parseU32 : List Char → Option Nat
  | [] => none
  | ['+'] => none
  | '+' :: digits => parseDigits 0 digits
  | digits => parseDigits 0 digits

namespace Backlog

/-- Why a setting is refused: `expected` is "invalid backlog {s}: expected N, Nh or Nd", and `unit` is "invalid
    backlog unit {u}: use h or d". -/
inductive ParseError
  | expected (s : List Char)
  | unit (u : Char)
deriving DecidableEq, Repr

/-- The number, and the letter after it in lower case. -/
def splitUnit (s : List Char) : List Char × Option Char :=
  match s.getLast? with
  | some c => if c.isAlpha then (s.dropLast, some c.toLower) else (s, none)
  | none => (s, none)

/-- The `match (n, unit)` at the end. -/
def ofCount (n : Nat) (unit : Option Char) : Except ParseError Backlog :=
  match n, unit with
  | 0, _ => .ok .off
  | n, none => .ok (.messages n)
  | n, some 'h' => .ok (.seconds (n * 3600))
  | n, some 'd' => .ok (.seconds (n * 86400))
  | _, some u => .error (.unit u)

/-- `0` disables it, `N` means N messages, `Nh` / `Nd` a time window. -/
def fromStr (s : List Char) : Except ParseError Backlog :=
  let s := trim s
  let (num, unit) := splitUnit s
  match parseU32 num with
  | none => .error (.expected s)
  | some n => ofCount n unit

end Backlog

/-! ### The documented form -/

/-- What decimal digits stand for, after a number that was read before. -/
def value (n : Nat) (digits : List Char) : Nat := digits.foldl (fun n c => n * 10 + (c.toNat - 48)) n

/-- A decimal number that a `u32` holds, with or without a plus sign. -/
def Number (num : List Char) (n : Nat) : Prop := ∃ digits, (num = digits ∨ num = '+' :: digits) ∧ digits ≠ [] ∧
  (∀ c ∈ digits, c.isDigit = true) ∧ value 0 digits = n ∧ n ≤ 4294967295

/-- What a setting of the documented form means. -/
inductive Backlog.Means : List Char → Backlog → Prop
  | off {num unit : List Char} : Number num 0 → unit ∈ [[], ['h'], ['H'], ['d'], ['D']] → Means (num ++ unit) .off
  | messages {num : List Char} {n : Nat} : Number num n → 0 < n → Means num (.messages n)
  | hours {num : List Char} {n : Nat} {u : Char} :
      Number num n → 0 < n → u = 'h' ∨ u = 'H' → Means (num ++ [u]) (.seconds (3600 * n))
  | days {num : List Char} {n : Nat} {u : Char} :
      Number num n → 0 < n → u = 'd' ∨ u = 'D' → Means (num ++ [u]) (.seconds (86400 * n))

/-- A zero with another letter than those after it. -/
def Backlog.OddZero (s : List Char) : Prop :=
  ∃ num u, s = num ++ [u] ∧ Number num 0 ∧ u.isAlpha = true ∧ u ∉ ['h', 'H', 'd', 'D']

section
variable {s num digits : List Char} {n m : Nat} {c u : Char} {b : Backlog}

theorem le_value : n ≤ value n digits := by
  induction digits generalizing n with
  | nil => exact Nat.le_refl n
  | cons c digits ih =>
    have hle : n ≤ n * 10 + (c.toNat - 48) := by omega
    exact Nat.le_trans hle ih

theorem parseDigits_eq_some_iff (hn : n < 2 ^ 32) :
    parseDigits n digits = some m ↔ (∀ c ∈ digits, c.isDigit = true) ∧ value n digits = m ∧ m < 2 ^ 32 := by
  induction digits generalizing n with
  | nil =>
    simp only [parseDigits, value, Option.some.injEq, List.not_mem_nil, false_implies, implies_true,
      List.foldl_nil, true_and]
    constructor
    · rintro rfl
      exact ⟨rfl, hn⟩
    · exact And.left
  | cons c digits ih =>
    rw [parseDigits]
    split
    · rename_i h
      rw [ih h.2]
      simp [h.1, value]
    · rename_i h
      refine iff_of_false nofun ?_
      rintro ⟨hdigits, hvalue, hm⟩
      have hle : n * 10 + (c.toNat - 48) ≤ m := hvalue ▸ le_value
      exact h ⟨hdigits c List.mem_cons_self, Nat.lt_of_le_of_lt hle hm⟩

theorem isAlpha_iff : c.isAlpha = true ↔ 65 ≤ c.toNat ∧ c.toNat ≤ 90 ∨ 97 ≤ c.toNat ∧ c.toNat ≤ 122 := by
  delta Char.isAlpha Char.isUpper Char.isLower
  simp only [Bool.or_eq_true, Bool.and_eq_true, decide_eq_true_eq, ge_iff_le, UInt32.le_iff_toNat_le]
  exact Iff.rfl

theorem isDigit_iff : c.isDigit = true ↔ 48 ≤ c.toNat ∧ c.toNat ≤ 57 := by
  simp only [Char.isDigit, Bool.and_eq_true, decide_eq_true_eq, ge_iff_le, UInt32.le_iff_toNat_le]
  exact Iff.rfl

/-- A letter and its capital are the same in lower case. -/
theorem toLower_eq_iff {l : Char} (hu : 65 ≤ u.toNat ∧ u.toNat ≤ 90) (hl : l.toNat = u.toNat + 32) :
    c.toLower = l ↔ c = l ∨ c = u := by
  have hinj (x y : Char) : x = y ↔ x.toNat = y.toNat := ⟨fun h => h ▸ rfl, fun h => Char.ext (UInt32.toNat_inj.mp h)⟩
  have hlower : c.toLower.toNat = if 65 ≤ c.toNat ∧ c.toNat ≤ 90 then c.toNat + 32 else c.toNat := by
    unfold Char.toLower
    by_cases h : c.val ≥ 'A'.val ∧ c.val ≤ 'Z'.val
    · have h' : 65 ≤ c.toNat ∧ c.toNat ≤ 90 := ⟨UInt32.le_iff_toNat_le.mp h.1, UInt32.le_iff_toNat_le.mp h.2⟩
      rw [dif_pos h, if_pos h']
      show (c.val + _).toNat = _
      rw [UInt32.toNat_add]
      show (c.toNat + 32) % 2 ^ 32 = _
      omega
    · have h' : ¬(65 ≤ c.toNat ∧ c.toNat ≤ 90) :=
        fun h' => h ⟨UInt32.le_iff_toNat_le.mpr h'.1, UInt32.le_iff_toNat_le.mpr h'.2⟩
      rw [dif_neg h, if_neg h']
  rw [hinj, hinj, hinj, hlower]
  split <;> omega

/-- A number ends in a digit. -/
theorem Number.not_alpha (h : Number num n) (hc : num.getLast? = some c) : ¬c.isAlpha = true := by
  obtain ⟨digits, hnum, hne, hdigits, -⟩ := h
  have hlast : digits.getLast? = some c := by
    rcases hnum with rfl | rfl
    · exact hc
    · rwa [List.getLast?_cons_of_ne_nil hne] at hc
  have hdigit := hdigits c (List.mem_of_getLast? hlast)
  rw [isDigit_iff] at hdigit
  rw [isAlpha_iff]
  omega

theorem parseU32_eq_some_iff : parseU32 num = some n ↔ Number num n := by
  have hiff {digits : List Char} (hne : digits ≠ []) (hnum : ∀ digits', num = digits' ∨ num = '+' :: digits' →
      digits' ≠ [] → (∀ c ∈ digits', c.isDigit = true) → digits' = digits) (hof : num = digits ∨ num = '+' :: digits) :
      parseDigits 0 digits = some n ↔ Number num n := by
    rw [parseDigits_eq_some_iff (by decide)]
    constructor
    · rintro ⟨hdigits, hvalue, hn⟩
      exact ⟨digits, hof, hne, hdigits, hvalue, by omega⟩
    · rintro ⟨digits', h, hne', hdigits, hvalue, hn⟩
      obtain rfl := hnum digits' h hne' hdigits
      exact ⟨hdigits, hvalue, by omega⟩
  have hplus : ('+' : Char).isDigit = false := by decide
  unfold parseU32
  split
  · refine iff_of_false nofun ?_
    rintro ⟨digits, rfl | heq, hne, -⟩
    · exact hne rfl
    · cases heq
  · refine iff_of_false nofun ?_
    rintro ⟨digits, rfl | heq, hne, hdigits, -⟩
    · rw [hdigits '+' List.mem_cons_self] at hplus
      cases hplus
    · cases heq
      exact hne rfl
  · rename_i digits hne
    refine hiff (fun h => hne (h ▸ rfl)) (fun digits' h hne' hdigits => ?_) (Or.inr rfl)
    rcases h with rfl | h
    · rw [hdigits '+' List.mem_cons_self] at hplus
      cases hplus
    · exact (List.cons.inj h).2.symm
  · rename_i hnil hone hmore
    refine hiff hnil (fun digits' h hne' hdigits => ?_) (Or.inl rfl)
    rcases h with rfl | h
    · rfl
    · exact absurd h (hmore digits')

namespace Backlog

theorem splitUnit_eq_none : splitUnit s = (num, none) ↔ s = num ∧ ∀ c, s.getLast? = some c → ¬c.isAlpha = true := by
  unfold splitUnit
  cases hlast : s.getLast? with
  | none => simp
  | some c => by_cases hc : c.isAlpha = true <;> simp [hc]

theorem splitUnit_eq_some {l : Char} : splitUnit s = (num, some l) ↔
    ∃ c, s = num ++ [c] ∧ c.isAlpha = true ∧ c.toLower = l := by
  unfold splitUnit
  rcases List.eq_nil_or_concat s with rfl | ⟨init, c, hs⟩
  · simp
  · rw [List.concat_eq_append] at hs
    subst hs
    rw [List.getLast?_concat, List.dropLast_concat]
    dsimp only
    by_cases hc : c.isAlpha = true
    · rw [if_pos hc, Prod.mk.injEq, Option.some.injEq]
      constructor
      · rintro ⟨rfl, hl⟩
        exact ⟨c, rfl, hc, hl⟩
      · rintro ⟨c', heq, -, hl⟩
        obtain ⟨hinit, hlast⟩ := List.append_inj' heq rfl
        obtain rfl := List.singleton_inj.mp hlast
        exact ⟨hinit, hl⟩
    · refine iff_of_false (by simp [hc]) ?_
      rintro ⟨c', heq, hc', -⟩
      obtain ⟨-, hlast⟩ := List.append_inj' heq rfl
      obtain rfl := List.singleton_inj.mp hlast
      exact hc hc'

theorem ofCount_eq_ok_iff {unit : Option Char} : ofCount n unit = .ok b ↔ n = 0 ∧ b = .off ∨
    0 < n ∧ (unit = none ∧ b = .messages n ∨ unit = some 'h' ∧ b = .seconds (3600 * n) ∨
      unit = some 'd' ∧ b = .seconds (86400 * n)) := by
  unfold ofCount
  split
  · simp [eq_comm]
  · rename_i hn
    simp [Nat.pos_of_ne_zero hn, show ¬n = 0 from hn, eq_comm]
  · rename_i hn
    simp [Nat.pos_of_ne_zero hn, show ¬n = 0 from hn, eq_comm, Int.mul_comm]
  · rename_i hn
    simp [Nat.pos_of_ne_zero hn, show ¬n = 0 from hn, eq_comm, Int.mul_comm]
  · rename_i hn hh hd
    refine iff_of_false nofun ?_
    rintro (⟨hzero, -⟩ | ⟨-, ⟨h, -⟩ | ⟨h, -⟩ | ⟨h, -⟩⟩)
    · exact hd hzero
    · cases h
    · exact hn (Option.some.inj h)
    · exact hh (Option.some.inj h)

/-- What is read of a setting: a number, and what its ending makes of it. -/
theorem fromStr_eq_ok_iff {unit : Option Char} (h : splitUnit (trim s) = (num, unit)) :
    fromStr s = .ok b ↔ ∃ n, Number num n ∧ ofCount n unit = .ok b := by
  have heq : fromStr s = match parseU32 (splitUnit (trim s)).1 with
    | none => .error (.expected (trim s))
    | some n => ofCount n (splitUnit (trim s)).2 := rfl
  rw [heq, h]
  dsimp only
  split
  · rename_i hparse
    refine iff_of_false nofun ?_
    rintro ⟨n, hnumber, -⟩
    cases hparse.symm.trans (parseU32_eq_some_iff.mpr hnumber)
  · rename_i n hparse
    constructor
    · exact fun h => ⟨n, parseU32_eq_some_iff.mp hparse, h⟩
    · rintro ⟨m, hnumber, h⟩
      cases hparse.symm.trans (parseU32_eq_some_iff.mpr hnumber)
      exact h

/-- A setting is read as what it means, and a zero with an odd letter is read as none at all. -/
theorem fromStr_eq_ok_iff_means : fromStr s = .ok b ↔ Means (trim s) b ∨ OddZero (trim s) ∧ b = .off := by
  have hletter {c : Char} (hc : c ∈ ['h', 'H', 'd', 'D']) : c.isAlpha = true := by
    simp only [List.mem_cons, List.not_mem_nil, or_false] at hc
    rcases hc with rfl | rfl | rfl | rfl <;> decide
  have hlast {num : List Char} {c : Char} : (num ++ [c]).getLast? = some c := List.getLast?_concat
  have hending {unit : List Char} (h : unit ∈ [[], ['h'], ['H'], ['d'], ['D']]) :
      unit = [] ∨ ∃ u ∈ ['h', 'H', 'd', 'D'], unit = [u] := by
    simpa using h
  rcases hsplit : splitUnit (trim s) with ⟨num, unit⟩
  rw [fromStr_eq_ok_iff hsplit]
  generalize trim s = t at hsplit
  cases unit with
  | none =>
    obtain ⟨rfl, hplain⟩ := splitUnit_eq_none.mp hsplit
    constructor
    · rintro ⟨n, hnumber, h⟩
      rcases ofCount_eq_ok_iff.mp h with ⟨rfl, rfl⟩ | ⟨hn, ⟨-, rfl⟩ | ⟨hunit, -⟩ | ⟨hunit, -⟩⟩
      · exact Or.inl (by simpa using Means.off hnumber (show [] ∈ [[], ['h'], ['H'], ['d'], ['D']] by simp))
      · exact Or.inl (.messages hnumber hn)
      · cases hunit
      · cases hunit
    · rintro (h | ⟨⟨num, u, rfl, -, hu, -⟩, -⟩)
      · cases h with
        | @off num unit hnumber hunit =>
          rcases hending hunit with rfl | ⟨u, hu, rfl⟩
          · exact ⟨0, by simpa using hnumber, rfl⟩
          · exact absurd (hletter hu) (hplain _ hlast)
        | messages hnumber hn => exact ⟨_, hnumber, ofCount_eq_ok_iff.mpr (Or.inr ⟨hn, Or.inl ⟨rfl, rfl⟩⟩)⟩
        | hours _ _ hu => exact absurd (hletter (by rcases hu with rfl | rfl <;> simp)) (hplain _ hlast)
        | days _ _ hu => exact absurd (hletter (by rcases hu with rfl | rfl <;> simp)) (hplain _ hlast)
      · exact absurd hu (hplain u hlast)
  | some l =>
    obtain ⟨c, rfl, hc, rfl⟩ := splitUnit_eq_some.mp hsplit
    have hsame {num' : List Char} {u : Char} (h : num' ++ [u] = num ++ [c]) : num' = num ∧ u = c :=
      ⟨(List.append_inj' h rfl).1, List.singleton_inj.mp (List.append_inj' h rfl).2⟩
    have hh : c.toLower = 'h' ↔ c = 'h' ∨ c = 'H' := toLower_eq_iff (by decide) (by decide)
    have hd : c.toLower = 'd' ↔ c = 'd' ∨ c = 'D' := toLower_eq_iff (by decide) (by decide)
    constructor
    · rintro ⟨n, hnumber, h⟩
      rcases ofCount_eq_ok_iff.mp h with ⟨rfl, rfl⟩ | ⟨hn, ⟨hunit, -⟩ | ⟨hunit, rfl⟩ | ⟨hunit, rfl⟩⟩
      · by_cases hknown : c ∈ ['h', 'H', 'd', 'D']
        · exact Or.inl (.off hnumber (by simpa using hknown))
        · exact Or.inr ⟨⟨num, c, rfl, hnumber, hc, hknown⟩, rfl⟩
      · cases hunit
      · exact Or.inl (.hours hnumber hn (hh.mp (Option.some.inj hunit)))
      · exact Or.inl (.days hnumber hn (hd.mp (Option.some.inj hunit)))
    · rintro (h | ⟨⟨num', u, heq, hnumber, -, -⟩, rfl⟩)
      · generalize ht : num ++ [c] = t at h
        cases h with
        | @off num' unit hnumber hunit =>
          rcases hending hunit with rfl | ⟨u, -, rfl⟩
          · rw [List.append_nil] at ht
            exact absurd hc (hnumber.not_alpha (ht ▸ hlast))
          · obtain ⟨rfl, rfl⟩ := hsame ht.symm
            exact ⟨0, hnumber, rfl⟩
        | messages hnumber => exact absurd hc (hnumber.not_alpha (ht ▸ hlast))
        | hours hnumber hn hu =>
          obtain ⟨rfl, rfl⟩ := hsame ht.symm
          exact ⟨_, hnumber, ofCount_eq_ok_iff.mpr (Or.inr ⟨hn, Or.inr (Or.inl ⟨congrArg some (hh.mpr hu), rfl⟩)⟩)⟩
        | days hnumber hn hu =>
          obtain ⟨rfl, rfl⟩ := hsame ht.symm
          exact ⟨_, hnumber, ofCount_eq_ok_iff.mpr (Or.inr ⟨hn, Or.inr (Or.inr ⟨congrArg some (hd.mpr hu), rfl⟩)⟩)⟩
      · obtain ⟨rfl, rfl⟩ := hsame heq.symm
        exact ⟨0, hnumber, rfl⟩

theorem OddZero.not_means (h : OddZero s) : ¬Means s b := by
  obtain ⟨num, u, rfl, -, hu, hodd⟩ := h
  have hlast {num : List Char} {c : Char} : (num ++ [c]).getLast? = some c := List.getLast?_concat
  generalize ht : num ++ [u] = t
  intro h
  cases h with
  | @off num' unit hnumber hunit =>
    have hends : unit = [] ∨ ∃ u ∈ ['h', 'H', 'd', 'D'], unit = [u] := by simpa using hunit
    rcases hends with rfl | ⟨u', hu', rfl⟩
    · rw [List.append_nil] at ht
      exact hnumber.not_alpha (ht ▸ hlast) hu
    · exact hodd (List.singleton_inj.mp (List.append_inj' ht rfl).2 ▸ hu')
  | messages hnumber => exact hnumber.not_alpha (ht ▸ hlast) hu
  | hours _ _ hu' | days _ _ hu' =>
    refine hodd (List.singleton_inj.mp (List.append_inj' ht rfl).2 ▸ ?_)
    rcases hu' with rfl | rfl <;> simp

theorem Means.fits {t : Int} (h : Means s (.seconds t)) : 0 < t ∧ t < 2 ^ 63 := by
  generalize hb : Backlog.seconds t = b at h
  cases h with
  | off | messages => cases hb
  | hours hnumber hn | days hnumber hn =>
    obtain ⟨_, -, -, -, -, hle⟩ := hnumber
    cases hb
    omega

/-- A setting is accepted if and only if it has the documented form, and read as what that means, but for a zero
    with an odd letter, which is read as none. -/
theorem fromStr_accepts_iff (s : List Char) : ((∀ b, fromStr s = .ok b ↔ Means (trim s) b) ↔ ¬OddZero (trim s)) ∧
    ∀ t, fromStr s = .ok (.seconds t) → 0 < t ∧ t < 2 ^ 63 := by
  refine ⟨⟨fun h hodd => ?_, fun hno b => ?_⟩, fun t h => ?_⟩
  · exact hodd.not_means ((h .off).mp (fromStr_eq_ok_iff_means.mpr (Or.inr ⟨hodd, rfl⟩)))
  · rw [fromStr_eq_ok_iff_means, or_iff_left fun h => hno h.1]
  · rcases fromStr_eq_ok_iff_means.mp h with hmeans | ⟨-, heq⟩
    · exact hmeans.fits
    · cases heq

/-- `0m` is read as none, though `5m` is refused. -/
theorem fromStr_odd_zero : fromStr ['0', 'm'] = .ok .off ∧ fromStr ['5', 'm'] = .error (.unit 'm') ∧
    ∀ b, ¬Means (trim ['0', 'm']) b := by
  refine ⟨by decide, by decide, fun b => OddZero.not_means ⟨['0'], 'm', by decide, ⟨['0'], Or.inl rfl, ?_⟩,
    by decide, by decide⟩⟩
  exact ⟨by simp, by simp, rfl, by simp⟩

end Backlog

end
end CoreSplitter
