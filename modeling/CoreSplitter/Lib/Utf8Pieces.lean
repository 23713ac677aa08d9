import CoreSplitter.Lib.Utf8

/-! How the decoder takes a byte string apart, and when two byte strings are decoded to the same text. -/

namespace CoreSplitter
namespace Utf8

/-! ### Pieces -/

/-- The bytes of a character that is not complete: how many follow the next one, and the range that lies in. -/
inductive Open : Bytes → Nat → UInt8 → UInt8 → Prop
  | lead {a : UInt8} {n : Nat} {lo hi : UInt8} : first a = ([], .inside [a] n lo hi) → Open [a] n lo hi
  | more {q : Bytes} {n : Nat} {lo hi b : UInt8} : Open q (n + 1) lo hi → lo ≤ b ∧ b ≤ hi → Open (q ++ [b]) n 0x80 0xBF

/-- A character that breaks off before its last byte. -/
def Cut (q : Bytes) : Prop := q ≠ [] ∧ ∃ r, r ≠ [] ∧ Char (q ++ r)

section
variable {p q r w : Bytes} {n : Nat} {a b lo hi : UInt8}

theorem decodeFrom_cons (s : State) (b : UInt8) (rest : Bytes) :
    decodeFrom s (b :: rest) = (next s b).1 ++ decodeFrom (next s b).2 rest := by
  cases s <;> rfl

/-- What a first byte is: a character of its own, no first byte at all, or one that others follow. -/
theorem first_cases (b : UInt8) : b < 0x80 ∧ first b = ([b], .start) ∨ first b = (replacement, .start) ∨
    ∃ n lo hi, first b = ([], .inside [b] n lo hi) := by
  unfold first
  split_ifs with h
  · exact Or.inl ⟨h, rfl⟩
  all_goals first
    | exact Or.inr (Or.inl rfl)
    | exact Or.inr (Or.inr ⟨_, _, _, rfl⟩)

theorem first_lead (h : first a = ([], .inside [a] n lo hi)) : 0xC2 ≤ a ∧ n ≤ 2 ∧ 0x80 ≤ lo ∧ lo ≤ hi ∧ hi ≤ 0xBF ∧
    (n = 0 → a ≤ 0xDF ∧ lo = 0x80 ∧ hi = 0xBF) := by
  unfold first at h
  split_ifs at h with h₁ h₂ h₃ h₄ h₅ h₆ h₇ h₈ <;> cases h
  · exact ⟨h₂.1, by decide, by decide, by decide, by decide, fun _ => ⟨h₂.2, rfl, rfl⟩⟩
  · exact ⟨h₃ ▸ by decide, by decide, by decide, by decide, by decide, nofun⟩
  · exact ⟨h₄ ▸ by decide, by decide, by decide, by decide, by decide, nofun⟩
  · exact ⟨UInt8.le_trans (by decide) h₅.1, by decide, by decide, by decide, by decide, nofun⟩
  · exact ⟨h₆ ▸ by decide, by decide, by decide, by decide, by decide, nofun⟩
  · exact ⟨UInt8.le_trans (by decide) h₇.1, by decide, by decide, by decide, by decide, nofun⟩
  · exact ⟨h₈ ▸ by decide, by decide, by decide, by decide, by decide, nofun⟩

theorem Open.range (h : Open q n lo hi) : 0x80 ≤ lo ∧ lo ≤ hi ∧ hi ≤ 0xBF := by
  cases h with
  | lead h =>
    obtain ⟨-, -, hlo, hle, hhi, -⟩ := first_lead h
    exact ⟨hlo, hle, hhi⟩
  | more => exact ⟨by decide, by decide, by decide⟩

theorem Open.ne_nil (h : Open q n lo hi) : q ≠ [] := by
  cases h <;> simp

theorem Open.tail (h : Open q n lo hi) (hb : lo ≤ b ∧ b ≤ hi) : Tail b := by
  obtain ⟨hlo, -, hhi⟩ := h.range
  exact ⟨UInt8.le_trans hlo hb.1, UInt8.le_trans hb.2 hhi⟩

theorem Open.decode (h : Open q n lo hi) (r : Bytes) : lossy (q ++ r) = decodeFrom (.inside q n lo hi) r := by
  induction h generalizing r with
  | @lead a n lo hi h =>
    rw [List.singleton_append, lossy, decodeFrom_cons, next, h]
    rfl
  | @more q n lo hi b h hb ih =>
    rw [List.append_assoc, List.singleton_append, ih, decodeFrom_cons, next, if_pos hb]
    rfl

/-- A character that breaks off is put as U+FFFD. -/
theorem Open.lossy_cut (h : Open q n lo hi) : lossy q = replacement := by
  have hdecode := h.decode []
  rw [List.append_nil] at hdecode
  exact hdecode

theorem Open.lossy_broken (h : Open q n lo hi) (hb : ¬(lo ≤ b ∧ b ≤ hi)) :
    lossy (q ++ b :: r) = replacement ++ lossy (b :: r) := by
  have hnext : next (.inside q n lo hi) b = (replacement ++ (first b).1, (first b).2) := if_neg hb
  rw [h.decode, decodeFrom_cons, hnext, List.append_assoc]
  rfl

theorem Open.lossy_char (h : Open q 0 lo hi) (hb : lo ≤ b ∧ b ≤ hi) : lossy (q ++ b :: r) = q ++ b :: lossy r := by
  rw [h.decode, decodeFrom_cons, next, if_pos hb, lossy]
  simp

theorem lossy_stray (h : first b = (replacement, .start)) : lossy (b :: r) = replacement ++ lossy r := by
  rw [lossy, decodeFrom_cons, next, h]
  rfl

/-- What bytes of a character there can be before it is complete. -/
theorem Open.shape (h : Open q n lo hi) : (∃ a, q = [a] ∧ first a = ([], .inside [a] n lo hi)) ∨
    (∃ a b lo' hi', q = [a, b] ∧ first a = ([], .inside [a] (n + 1) lo' hi') ∧ (lo' ≤ b ∧ b ≤ hi') ∧
      lo = 0x80 ∧ hi = 0xBF) ∨
    ∃ a b c lo' hi', q = [a, b, c] ∧ first a = ([], .inside [a] 2 lo' hi') ∧ (lo' ≤ b ∧ b ≤ hi') ∧ Tail c ∧ n = 0 ∧
      lo = 0x80 ∧ hi = 0xBF := by
  induction h with
  | lead h => exact Or.inl ⟨_, rfl, h⟩
  | @more q n lo hi b h hb ih =>
    rcases ih with ⟨a, rfl, hfirst⟩ | ⟨a, b', lo', hi', rfl, hfirst, hb', rfl, rfl⟩ | ⟨_, _, _, _, _, -, -, -, -, hn, -⟩
    · exact Or.inr (Or.inl ⟨a, b, lo, hi, rfl, hfirst, hb, rfl, rfl⟩)
    · obtain ⟨-, hn, -⟩ := first_lead hfirst
      obtain rfl : n = 0 := by omega
      exact Or.inr (Or.inr ⟨a, b', b, lo', hi', rfl, hfirst, hb', hb, rfl, rfl, rfl⟩)
    · cases hn

theorem Open.char (h : Open q 0 lo hi) (hb : lo ≤ b ∧ b ≤ hi) : Char (q ++ [b]) := by
  rcases h.shape with ⟨a, rfl, hfirst⟩ | ⟨a, b', lo', hi', rfl, hfirst, hb', rfl, rfl⟩ |
    ⟨a, b', c, lo', hi', rfl, hfirst, hb', hc, -, rfl, rfl⟩
  · obtain ⟨ha, -, -, -, -, hrange⟩ := first_lead hfirst
    obtain ⟨ha', rfl, rfl⟩ := hrange rfl
    exact .two ha ha' hb
  · exact .three hfirst hb'.1 hb'.2 hb
  · exact .four hfirst hb'.1 hb'.2 hc hb

/-- A byte string in the pieces that the decoder reads it in. -/
inductive Pieces : Bytes → Prop
  | nil : Pieces []
  | char {c r : Bytes} : Char c → Pieces r → Pieces (c ++ r)
  | stray {b : UInt8} {r : Bytes} : first b = (replacement, .start) → Pieces r → Pieces (b :: r)
  | cut {q : Bytes} {n : Nat} {lo hi : UInt8} : Open q n lo hi → Pieces q
  | broken {q r : Bytes} {n : Nat} {lo hi b : UInt8} :
      Open q n lo hi → ¬(lo ≤ b ∧ b ≤ hi) → Pieces (b :: r) → Pieces (q ++ b :: r)

theorem Open.pieces (h : Open q n lo hi) (r : Bytes) (hr : ∀ r', r'.length ≤ r.length → Pieces r') :
    Pieces (q ++ r) := by
  induction r generalizing q n lo hi with
  | nil =>
    rw [List.append_nil]
    exact .cut h
  | cons b r ih =>
    have hrest : ∀ r', r'.length ≤ r.length → Pieces r' := fun r' hle => hr r' (Nat.le_succ_of_le hle)
    by_cases hb : lo ≤ b ∧ b ≤ hi
    · cases n with
      | zero =>
        rw [List.append_cons]
        exact .char (h.char hb) (hrest r (Nat.le_refl _))
      | succ n =>
        rw [List.append_cons]
        exact ih (.more h hb) hrest
    · exact .broken h hb (hr _ (Nat.le_refl _))

theorem pieces (p : Bytes) : Pieces p := by
  induction hlen : p.length using Nat.strong_induction_on generalizing p with
  | h len ih =>
    subst hlen
    cases p with
    | nil => exact .nil
    | cons a r =>
      have hrest : ∀ r', r'.length ≤ r.length → Pieces r' := fun r' hle => ih _ (Nat.lt_succ_of_le hle) r' rfl
      rcases first_cases a with ⟨ha, -⟩ | hstray | ⟨n, lo, hi, hlead⟩
      · exact .char (.one ha) (hrest r (Nat.le_refl _))
      · exact .stray hstray (hrest r (Nat.le_refl _))
      · exact (Open.lead hlead).pieces r hrest

theorem lossy_char {c : Bytes} (hc : Char c) (r : Bytes) : lossy (c ++ r) = c ++ lossy r := decodeFrom_char hc r

/-- U+FFFD is complete: what is open of it goes on. -/
theorem Open.of_replacement {t : Bytes} (h : Open q n lo hi) (heq : q ++ r = replacement ++ t) :
    ∃ b r', r = b :: r' ∧ lo ≤ b ∧ b ≤ hi := by
  have hlead : first 0xEF = ([], .inside [0xEF] 1 0x80 0xBF) := rfl
  rcases h.shape with ⟨a, rfl, hfirst⟩ | ⟨a, b, lo', hi', rfl, hfirst, -, rfl, rfl⟩ |
    ⟨a, b, c, lo', hi', rfl, hfirst, -⟩
  · obtain ⟨rfl, rfl⟩ : a = 0xEF ∧ r = 0xBF :: 0xBD :: t := by simpa [replacement] using heq
    cases hlead.symm.trans hfirst
    exact ⟨_, _, rfl, by decide, by decide⟩
  · obtain ⟨rfl, rfl, rfl⟩ : a = 0xEF ∧ b = 0xBF ∧ r = 0xBD :: t := by simpa [replacement] using heq
    cases hlead.symm.trans hfirst
    exact ⟨_, _, rfl, by decide, by decide⟩
  · obtain ⟨rfl, -⟩ : a = 0xEF ∧ _ := by simpa [replacement] using heq
    cases hlead.symm.trans hfirst

/-! ### Decoded to itself -/

theorem stray_ne_replacement (h : first b = (replacement, .start)) : b ≠ 0xEF := by
  rintro rfl
  cases h

/-- Lossy decoding keeps a text only if it is well formed. -/
theorem lossy_eq_self_iff : lossy p = p ↔ WellFormed p := by
  refine ⟨fun h => ?_, lossy_eq_self⟩
  induction pieces p with
  | nil => exact .nil
  | @char c r hc _ ih =>
    rw [lossy_char hc] at h
    exact .cons hc (ih (List.append_cancel_left h))
  | stray hb =>
    rw [lossy_stray hb] at h
    exact absurd (List.cons.inj h).1.symm (stray_ne_replacement hb)
  | @cut q _ _ _ hq =>
    rw [hq.lossy_cut] at h
    obtain ⟨_, _, hnil, -⟩ := hq.of_replacement (show q ++ [] = replacement ++ [] by rw [h])
    cases hnil
  | broken hq hb =>
    rw [hq.lossy_broken hb] at h
    obtain ⟨_, _, heq, hrange⟩ := hq.of_replacement h.symm
    cases heq
    exact absurd hrange hb

/-- Cut to a length, the decoded text is what it was only if it was well formed, or filled that length and broke off
    in a character that begins as U+FFFD does. -/
theorem take_lossy_eq_iff (hp : p.length ≤ n) : (lossy p).take n = p ↔
    WellFormed p ∨ p.length = n ∧ ∃ w, WellFormed w ∧ (p = w ++ [0xEF] ∨ p = w ++ [0xEF, 0xBF]) := by
  constructor
  · intro h
    induction pieces p generalizing n with
    | nil => exact Or.inl .nil
    | @char c r hc _ ih =>
      rw [List.length_append] at hp
      rw [lossy_char hc, List.take_append, List.take_of_length_le (by omega)] at h
      rcases ih (by omega) (List.append_cancel_left h) with hr | ⟨hlen, w, hw, heq⟩
      · exact Or.inl (.cons hc hr)
      · refine Or.inr ⟨by rw [List.length_append]; omega, c ++ w, .cons hc hw, heq.imp ?_ ?_⟩
        · rintro rfl
          exact (List.append_assoc ..).symm
        · rintro rfl
          exact (List.append_assoc ..).symm
    | @stray b r hb =>
      rw [lossy_stray hb] at h
      cases n with
      | zero => cases h
      | succ n => exact absurd (List.cons.inj h).1.symm (stray_ne_replacement hb)
    | @cut q k lo hi hq =>
      rw [hq.lossy_cut] at h
      match n with
      | 0 => exact absurd h.symm hq.ne_nil
      | 1 => exact Or.inr ⟨h ▸ rfl, [], .nil, Or.inl h.symm⟩
      | 2 => exact Or.inr ⟨h ▸ rfl, [], .nil, Or.inr h.symm⟩
      | n + 3 =>
        obtain ⟨_, _, hnil, -⟩ := hq.of_replacement (show q ++ [] = replacement ++ [] by rw [← h]; simp [replacement])
        cases hnil
    | @broken q r k lo hi b hq hb =>
      rw [hq.lossy_broken hb] at h
      have hne : 0 < q.length := List.length_pos_of_ne_nil hq.ne_nil
      rw [List.length_append, List.length_cons] at hp
      match n with
      | 0 | 1 => omega
      | 2 =>
        -- There is room for the first byte of U+FFFD, and the next one goes on with it.
        have heq : q ++ (b :: r ++ [0xBD]) = replacement ++ [] := by
          rw [← List.append_assoc, ← h]
          rfl
        obtain ⟨_, _, heq, hrange⟩ := hq.of_replacement heq
        cases heq
        exact absurd hrange hb
      | n + 3 =>
        have heq : q ++ b :: r = replacement ++ (lossy (b :: r)).take n := by
          rw [← h]
          simp [replacement]
        obtain ⟨_, _, heq, hrange⟩ := hq.of_replacement heq
        cases heq
        exact absurd hrange hb
  · have hkeep {w : Bytes} (hw : WellFormed w) (r : Bytes) : lossy (w ++ r) = w ++ lossy r := by
      induction hw with
      | nil => rfl
      | cons hc _ ih => rw [List.append_assoc, lossy_char hc, ih, List.append_assoc]
    rintro (hp' | ⟨rfl, w, hw, rfl | rfl⟩)
    · rw [lossy_eq_self hp', List.take_of_length_le hp]
    · rw [hkeep hw, List.take_append, List.take_of_length_le (by simp)]
      simp [lossy, decodeFrom, next, first, replacement]
    · rw [hkeep hw, List.take_append, List.take_of_length_le (by simp)]
      simp [lossy, decodeFrom, next, first, replacement]

/-! ### Breaking off -/

theorem Char.ne_nil {c : Bytes} (h : Char c) : c ≠ [] := by
  cases h <;> simp

theorem lossy_eq_nil_iff : lossy p = [] ↔ p = [] := by
  refine ⟨fun h => ?_, by rintro rfl; rfl⟩
  cases pieces p with
  | nil => rfl
  | char hc =>
    rw [lossy_char hc] at h
    exact absurd (List.append_eq_nil_iff.mp h).1 hc.ne_nil
  | stray hb =>
    rw [lossy_stray hb] at h
    cases h
  | cut hq =>
    rw [hq.lossy_cut] at h
    cases h
  | broken hq hb =>
    rw [hq.lossy_broken hb] at h
    cases h

/-- A byte that continues no character starts the decoder afresh. -/
theorem lossy_append (ha : ¬Tail a) : lossy (w ++ a :: r) = lossy w ++ lossy (a :: r) := by
  induction pieces w with
  | nil => rfl
  | char hc _ ih => rw [List.append_assoc, lossy_char hc, lossy_char hc, ih, List.append_assoc]
  | stray hb _ ih => rw [List.cons_append, lossy_stray hb, lossy_stray hb, ih, List.append_assoc]
  | cut hq => rw [hq.lossy_broken fun h => ha (hq.tail h), hq.lossy_cut]
  | broken hq hb _ ih =>
    rw [List.append_assoc, List.cons_append, hq.lossy_broken hb, hq.lossy_broken hb, ← List.cons_append, ih,
      List.append_assoc]

theorem Open.of_append (h : Open (q ++ r) n lo hi) (hq : q ≠ []) : ∃ n lo hi, Open q n lo hi := by
  generalize hp : q ++ r = p at h
  induction h generalizing r with
  | lead h =>
    rcases List.append_eq_singleton_iff.mp hp with ⟨rfl, -⟩ | ⟨rfl, -⟩
    · exact absurd rfl hq
    · exact ⟨_, _, _, .lead h⟩
  | more h hb ih =>
    rcases List.eq_nil_or_concat r with rfl | ⟨r', b', rfl⟩
    · rw [List.append_nil] at hp
      exact ⟨_, _, _, hp ▸ Open.more h hb⟩
    · rw [List.concat_eq_append, ← List.append_assoc] at hp
      exact ih (List.append_inj' hp rfl).1

theorem Char.cases_open {c : Bytes} (h : Char c) : (∃ a, c = [a]) ∨ ∃ q b lo hi, Open q 0 lo hi ∧ c = q ++ [b] := by
  cases h with
  | one => exact Or.inl ⟨_, rfl⟩
  | @two a b ha ha' hb =>
    refine Or.inr ⟨[a], b, 0x80, 0xBF, .lead ?_, rfl⟩
    have hnot : ¬a < 0x80 := UInt8.not_lt.mpr (UInt8.le_trans (by decide) ha)
    rw [first, if_neg hnot, if_pos ⟨ha, ha'⟩]
  | @three a b c lo hi ha hlo hhi hc => exact Or.inr ⟨[a, b], c, 0x80, 0xBF, .more (.lead ha) ⟨hlo, hhi⟩, rfl⟩
  | @four a b c d lo hi ha hlo hhi hc hd =>
    exact Or.inr ⟨[a, b, c], d, 0x80, 0xBF, .more (.more (.lead ha) ⟨hlo, hhi⟩) hc, rfl⟩

theorem Open.completes (h : Open q n lo hi) : ∃ r, r ≠ [] ∧ Char (q ++ r) := by
  obtain ⟨-, hle, -⟩ := h.range
  have hlo : lo ≤ lo ∧ lo ≤ hi := ⟨UInt8.le_refl lo, hle⟩
  induction n generalizing q lo hi with
  | zero => exact ⟨[lo], by simp, h.char hlo⟩
  | succ n ih =>
    obtain ⟨r, -, hc⟩ := ih (.more h hlo) (by decide) ⟨by decide, by decide⟩
    exact ⟨lo :: r, by simp, by simpa using hc⟩

theorem cut_iff : Cut q ↔ ∃ n lo hi, Open q n lo hi := by
  constructor
  · rintro ⟨hq, r, hr, hc⟩
    rcases hc.cases_open with ⟨a, heq⟩ | ⟨q', b, lo, hi, hopen, heq⟩
    · rcases List.append_eq_singleton_iff.mp heq with ⟨rfl, -⟩ | ⟨-, rfl⟩
      · exact absurd rfl hq
      · exact absurd rfl hr
    · obtain ⟨r', b', rfl⟩ := (List.eq_nil_or_concat r).resolve_left hr
      rw [List.concat_eq_append, ← List.append_assoc] at heq
      obtain rfl := (List.append_inj' heq rfl).1
      exact hopen.of_append hq
  · rintro ⟨n, lo, hi, h⟩
    exact ⟨h.ne_nil, h.completes⟩

theorem Open.lossy_eq_replacement_iff (h : Open q n lo hi) :
    lossy (q ++ r) = replacement ↔ Cut (q ++ r) ∨ q ++ r = replacement := by
  constructor
  · intro hr
    induction r generalizing q n lo hi with
    | nil => exact Or.inl (by simpa using cut_iff.mpr ⟨_, _, _, h⟩)
    | cons b r ih =>
      by_cases hb : lo ≤ b ∧ b ≤ hi
      · cases n with
        | zero =>
          rw [h.lossy_char hb] at hr
          have hlen := congrArg List.length hr
          rw [List.length_append, List.length_cons] at hlen
          rcases h.shape with ⟨a, rfl, hfirst⟩ | ⟨a, b', _, _, rfl, -⟩ | ⟨a, b', c, _, _, rfl, -⟩
          · obtain ⟨-, -, -, -, -, hrange⟩ := first_lead hfirst
            cases (List.cons.inj hr).1
            exact absurd (hrange rfl).1 (by decide)
          · have hnil : lossy r = [] := List.eq_nil_of_length_eq_zero (by simp [replacement] at hlen; omega)
            rw [lossy_eq_nil_iff.mp hnil] at hr ⊢
            exact Or.inr hr
          · simp [replacement] at hlen
        | succ n =>
          rw [List.append_cons] at hr ⊢
          exact ih (.more h hb) hr
      · rw [h.lossy_broken hb] at hr
        have hnil : lossy (b :: r) = [] := List.append_cancel_left (hr.trans (List.append_nil _).symm)
        exact absurd (lossy_eq_nil_iff.mp hnil) (List.cons_ne_nil _ _)
  · rintro (hcut | heq)
    · obtain ⟨n, lo, hi, hopen⟩ := cut_iff.mp hcut
      exact hopen.lossy_cut
    · rw [heq]
      rfl

theorem Open.not_tail (h : Open (a :: q) n lo hi) : ¬Tail a := by
  have hlead {n : Nat} {lo hi : UInt8} (h : first a = ([], .inside [a] n lo hi)) : ¬Tail a := fun htail =>
    absurd (UInt8.le_trans (first_lead h).1 htail.2) (by decide)
  rcases h.shape with ⟨_, heq, hfirst⟩ | ⟨_, _, _, _, heq, hfirst, -⟩ | ⟨_, _, _, _, _, heq, hfirst, -⟩ <;>
    cases heq <;> exact hlead hfirst

/-- What begins a character that breaks off, or U+FFFD, is put as that. -/
theorem lossy_of_begins {y : Bytes} (hq : a :: q ++ y = p) (h : Cut p ∨ p = replacement) :
    ¬Tail a ∧ lossy (a :: q) = replacement := by
  rcases h with hcut | heq
  · obtain ⟨n, lo, hi, hopen⟩ := cut_iff.mp hcut
    obtain ⟨n, lo, hi, hopen⟩ := (hq ▸ hopen).of_append (List.cons_ne_nil a q)
    exact ⟨hopen.not_tail, hopen.lossy_cut⟩
  · obtain ⟨rfl, hrest⟩ : a = 0xEF ∧ q ++ y = [0xBF, 0xBD] := by simpa [replacement] using hq.trans heq
    refine ⟨fun h => absurd h.2 (by decide), ?_⟩
    match q with
    | [] => rfl
    | [b] =>
      obtain ⟨rfl, -⟩ : b = 0xBF ∧ _ := by simpa using hrest
      rfl
    | b :: c :: q =>
      obtain ⟨rfl, rfl, hnil⟩ : b = 0xBF ∧ c = 0xBD ∧ q ++ y = [] := by simpa using hrest
      rw [(List.append_eq_nil_iff.mp hnil).1]
      rfl

/-- More bytes leave the decoded text as it is if there are none, or if they go on with the character that it breaks
    off in and do not complete it, or only to U+FFFD. -/
theorem lossy_append_eq_left_iff {x y : Bytes} : lossy (x ++ y) = lossy x ↔
    y = [] ∨ ∃ w q, x = w ++ q ∧ q ≠ [] ∧ (Cut (q ++ y) ∨ q ++ y = replacement) := by
  constructor
  · intro h
    induction pieces x with
    | nil => exact Or.inl (lossy_eq_nil_iff.mp h)
    | @char c r hc _ ih =>
      rw [List.append_assoc, lossy_char hc, lossy_char hc] at h
      refine (ih (List.append_cancel_left h)).imp_right ?_
      rintro ⟨w, q, rfl, hq⟩
      exact ⟨c ++ w, q, (List.append_assoc ..).symm, hq⟩
    | @stray b r hb _ ih =>
      rw [List.cons_append, lossy_stray hb, lossy_stray hb] at h
      refine (ih (List.append_cancel_left h)).imp_right ?_
      rintro ⟨w, q, rfl, hq⟩
      exact ⟨b :: w, q, rfl, hq⟩
    | @cut q n lo hi hq =>
      rw [hq.lossy_cut] at h
      exact Or.inr ⟨[], q, rfl, hq.ne_nil, hq.lossy_eq_replacement_iff.mp h⟩
    | @broken q r n lo hi b hq hb _ ih =>
      rw [List.append_assoc, List.cons_append, hq.lossy_broken hb, hq.lossy_broken hb] at h
      refine (ih (List.append_cancel_left h)).imp_right ?_
      rintro ⟨w, q', heq, hq'⟩
      exact ⟨q ++ w, q', by rw [heq, List.append_assoc], hq'⟩
  · rintro (rfl | ⟨w, q, rfl, hq, h⟩)
    · rw [List.append_nil]
    · obtain ⟨a, q, rfl⟩ := List.exists_cons_of_ne_nil hq
      obtain ⟨htail, hcut⟩ := lossy_of_begins rfl h
      obtain ⟨-, hcut' : lossy (a :: q ++ y) = replacement⟩ := lossy_of_begins (List.append_nil (a :: q ++ y)) h
      rw [List.append_assoc, List.cons_append, lossy_append htail, lossy_append htail, ← List.cons_append, hcut, hcut']

/-! ### Bytes in front -/

theorem first_tail (h : Tail b) : first b = (replacement, .start) := by
  rcases first_cases b with ⟨hb, -⟩ | hb | ⟨_, _, _, hb⟩
  · exact absurd h.1 (UInt8.not_le.mpr hb)
  · exact hb
  · exact absurd h (Open.lead hb).not_tail

theorem Open.length_le (h : Open q n lo hi) : q.length ≤ 3 := by
  rcases h.shape with ⟨_, rfl, -⟩ | ⟨_, _, _, _, rfl, -⟩ | ⟨_, _, _, _, _, rfl, -⟩ <;> simp

theorem length_le_lossy (p : Bytes) : p.length ≤ (lossy p).length := by
  induction pieces p with
  | nil => exact Nat.le_refl _
  | char hc _ ih =>
    rw [lossy_char hc, List.length_append, List.length_append]
    omega
  | stray hb _ ih =>
    rw [lossy_stray hb, List.length_append, List.length_cons, show replacement.length = 3 from rfl]
    omega
  | cut hq =>
    rw [hq.lossy_cut]
    exact hq.length_le
  | broken hq hb _ ih =>
    have hle := hq.length_le
    rw [hq.lossy_broken hb, List.length_append, List.length_append, show replacement.length = 3 from rfl]
    omega

/-- Two texts are decoded apart, unless the second goes on with a character that the first breaks off in. -/
theorem lossy_append_cases (x y : Bytes) :
    lossy (x ++ y) = lossy x ++ lossy y ∨ ∃ w q n lo hi b r, x = w ++ q ∧ y = b :: r ∧
    Open q n lo hi ∧ (lo ≤ b ∧ b ≤ hi) ∧ lossy (x ++ y) = lossy w ++ lossy (q ++ y) := by
  induction pieces x with
  | nil => exact Or.inl rfl
  | @char c r hc _ ih =>
    rw [List.append_assoc, lossy_char hc, lossy_char hc, List.append_assoc]
    refine ih.imp (congrArg (c ++ ·)) ?_
    rintro ⟨w, q, n, lo, hi, b, r', rfl, hy, hq, hb, h⟩
    exact ⟨c ++ w, q, n, lo, hi, b, r', (List.append_assoc ..).symm, hy, hq, hb,
      by rw [h, lossy_char hc, List.append_assoc]⟩
  | @stray a r ha _ ih =>
    rw [List.cons_append, lossy_stray ha, lossy_stray ha, List.append_assoc]
    refine ih.imp (congrArg (replacement ++ ·)) ?_
    rintro ⟨w, q, n, lo, hi, b, r', rfl, hy, hq, hb, h⟩
    exact ⟨a :: w, q, n, lo, hi, b, r', rfl, hy, hq, hb, by rw [h, lossy_stray ha, List.append_assoc]⟩
  | @cut q n lo hi hq =>
    cases y with
    | nil => exact Or.inl (by rw [List.append_nil, lossy_nil, List.append_nil])
    | cons b r =>
      by_cases hb : lo ≤ b ∧ b ≤ hi
      · exact Or.inr ⟨[], q, n, lo, hi, b, r, rfl, rfl, hq, hb, rfl⟩
      · exact Or.inl (by rw [hq.lossy_broken hb, hq.lossy_cut])
  | @broken q r n lo hi a hq ha _ ih =>
    rw [List.append_assoc, List.cons_append, hq.lossy_broken ha, hq.lossy_broken ha, List.append_assoc]
    refine ih.imp (congrArg (replacement ++ ·)) ?_
    rintro ⟨w, q', n', lo', hi', b, r', heq, hy, hq', hb, h⟩
    have hw : lossy (q ++ w) = replacement ++ lossy w := by
      cases w with
      | nil => rw [List.append_nil, hq.lossy_cut, lossy_nil, List.append_nil]
      | cons a' w =>
        cases (List.cons.inj heq).1
        exact hq.lossy_broken ha
    exact ⟨q ++ w, q', n', lo', hi', b, r', by rw [heq, List.append_assoc], hy, hq', hb, by
      rw [← List.cons_append, h, hw, List.append_assoc]⟩

theorem lossy_eq_replacement (hlen : 1 < p.length) (h : lossy p = replacement) : Cut p ∨ p = replacement := by
  have hnil {r : Bytes} (h : replacement ++ lossy r = replacement) : r = [] :=
    lossy_eq_nil_iff.mp (List.append_cancel_left (h.trans (List.append_nil _).symm))
  cases pieces p with
  | nil => cases h
  | @char c r hc =>
    rw [lossy_char hc] at h
    have hlen := congrArg List.length h
    rw [List.length_append] at hlen
    cases hc with
    | one ha =>
      cases (List.cons.inj h).1
      exact absurd ha (by decide)
    | two _ ha =>
      cases (List.cons.inj h).1
      exact absurd ha (by decide)
    | three =>
      have hr : lossy r = [] := List.eq_nil_of_length_eq_zero (by simp [replacement] at hlen; simp [hlen])
      rw [lossy_eq_nil_iff.mp hr] at h ⊢
      exact Or.inr h
    | four =>
      simp [replacement] at hlen
      omega
  | stray hb =>
    rw [lossy_stray hb] at h
    rw [hnil h] at hlen
    exact absurd hlen (by simp)
  | cut hq => exact Or.inl (cut_iff.mpr ⟨_, _, _, hq⟩)
  | broken hq hb =>
    rw [hq.lossy_broken hb] at h
    cases hnil h

/-- A character that three bytes of its own and more are missing of does not begin inside U+FFFD. -/
theorem Open.not_inside {x z : Bytes} (h : Open (a :: q) n lo hi)
    (heq : x ++ a :: z = replacement ++ (replacement ++ r)) (hx : x.length = 2 ∨ x.length = 5) : False := by
  have ha : (x ++ a :: z)[x.length]? = some a := by simp
  have htail : Tail 0xBD := ⟨by decide, by decide⟩
  rw [heq] at ha
  rcases hx with hx | hx <;> rw [hx] at ha <;> cases ha <;> exact h.not_tail htail

/-- Four bytes in front leave the decoded text as it is only if the first three are put as U+FFFD, and so is the
    last with two bytes of the text, which are put as that each on their own. -/
theorem lossy_append_eq_right_iff {s t : Bytes} (hs : s.length = 4) : lossy (s ++ t) = lossy t ↔
    ∃ u a b c r, s = u ++ [a] ∧ t = b :: c :: r ∧ (Cut u ∨ u = replacement) ∧
      ([a, b, c] = replacement ∨ Cut [a, b, c] ∧ ∀ d ∈ r.head?, ¬Tail d) := by
  constructor
  · intro h
    rcases lossy_append_cases s t with happart | ⟨w, q, n, lo, hi, b, r, rfl, rfl, hq, hb, hon⟩
    · rw [happart] at h
      have hnil : lossy s = [] := List.append_cancel_right (h.trans (List.nil_append _).symm)
      rw [lossy_eq_nil_iff.mp hnil] at hs
      cases hs
    · rw [hon, lossy_stray (first_tail (hq.tail hb))] at h
      rw [List.length_append] at hs
      have hw := length_le_lossy w
      have hne (z : Bytes) : lossy w ++ (replacement ++ z) ≠ replacement ++ z := fun heq => by
        have hnil : lossy w = [] := List.append_cancel_right (heq.trans (List.nil_append _).symm)
        rw [lossy_eq_nil_iff.mp hnil] at hs
        have hle := hq.length_le
        simp at hs
        omega
      cases n with
      | zero =>
        rw [hq.lossy_char hb] at h
        have hlen := congrArg List.length h
        simp [replacement] at hlen
        omega
      | succ n =>
        rw [List.append_cons] at h
        have hq' := Open.more hq hb
        cases r with
        | nil =>
          rw [List.append_nil, hq'.lossy_cut] at h
          exact absurd (by simpa using h) (hne [])
        | cons c r =>
          by_cases hc : 0x80 ≤ c ∧ c ≤ 0xBF
          · rw [lossy_stray (first_tail hc)] at h
            cases n with
            | zero =>
              rw [hq'.lossy_char hc] at h
              have hlen := congrArg List.length h
              rcases hq.shape with ⟨a, rfl, -⟩ | ⟨a, b', lo', hi', rfl, -⟩ | ⟨_, _, _, _, _, -, -, -, -, hn, -⟩
              · simp [replacement] at hlen
                obtain ⟨hw, habc⟩ := List.append_inj h (by simp [replacement]; omega)
                have habc : [a, b, c] = replacement := List.append_cancel_right (by simpa using habc)
                exact ⟨w, a, b, c, r, rfl, rfl, lossy_eq_replacement (by simp at hs; omega) hw, Or.inl habc⟩
              · simp [replacement] at hlen
                exact (hq.not_inside (by simpa using h) (Or.inl (by omega))).elim
              · cases hn
            | succ n =>
              rcases hq.shape with ⟨a, rfl, hfirst⟩ | ⟨_, _, _, _, -, hfirst, -⟩ | ⟨_, _, _, _, _, -, -, -, -, hn, -⟩
              · obtain ⟨-, hn, -⟩ := first_lead hfirst
                obtain rfl : n = 0 := by omega
                have hq'' := Open.more hq' hc
                have hcut : Cut [a, b, c] := cut_iff.mpr ⟨_, _, _, hq''⟩
                rw [List.append_cons] at h
                cases r with
                | nil =>
                  rw [List.append_nil, hq''.lossy_cut] at h
                  have hlen := congrArg List.length h
                  simp [replacement] at hlen
                  obtain ⟨hw, -⟩ := List.append_inj h (by simp [replacement]; omega)
                  exact ⟨w, a, b, c, [], rfl, rfl, lossy_eq_replacement (by simp at hs; omega) hw, Or.inr ⟨hcut, nofun⟩⟩
                | cons d r =>
                  by_cases hd : 0x80 ≤ d ∧ d ≤ 0xBF
                  · rw [hq''.lossy_char hd, lossy_stray (first_tail hd)] at h
                    have hlen := congrArg List.length h
                    simp [replacement] at hlen
                    exact (hq.not_inside (by simpa using h) (Or.inr (by omega))).elim
                  · rw [hq''.lossy_broken hd] at h
                    have hlen := congrArg List.length h
                    simp [replacement] at hlen
                    obtain ⟨hw, -⟩ := List.append_inj h (by simp [replacement]; omega)
                    refine ⟨w, a, b, c, d :: r, rfl, rfl, lossy_eq_replacement (by simp at hs; omega) hw,
                      Or.inr ⟨hcut, fun d' hd' => ?_⟩⟩
                    cases hd'
                    exact hd
              · obtain ⟨-, hn, -⟩ := first_lead hfirst
                omega
              · cases hn
          · rw [hq'.lossy_broken hc] at h
            exact absurd h (hne _)
  · rintro ⟨u, a, b, c, r, rfl, rfl, hu, habc⟩
    have hu : lossy u = replacement := by
      rcases hu with hcut | rfl
      · obtain ⟨_, _, _, hopen⟩ := cut_iff.mp hcut
        exact hopen.lossy_cut
      · rfl
    obtain ⟨ha, -⟩ := lossy_of_begins (List.append_nil [a, b, c]) (habc.symm.imp And.left id)
    have hbc : Tail b ∧ Tail c ∧ lossy ([a, b, c] ++ r) = replacement ++ lossy r := by
      rcases habc with heq | ⟨hcut, hd⟩
      · cases heq
        exact ⟨⟨by decide, by decide⟩, ⟨by decide, by decide⟩,
          lossy_char (.three rfl (by decide) (by decide) ⟨by decide, by decide⟩) r⟩
      · obtain ⟨n, lo, hi, hopen⟩ := cut_iff.mp hcut
        rcases hopen.shape with ⟨_, heq, -⟩ | ⟨_, _, _, _, heq, -⟩ |
          ⟨_, _, _, lo', hi', heq, hfirst, hb, hc, -, rfl, rfl⟩ <;> cases heq
        refine ⟨(Open.lead hfirst).tail hb, hc, ?_⟩
        cases r with
        | nil => rw [List.append_nil, hopen.lossy_cut, lossy_nil, List.append_nil]
        | cons d r => exact hopen.lossy_broken (hd d rfl)
    obtain ⟨hb, hc, hon⟩ := hbc
    rw [List.append_assoc, List.singleton_append, lossy_append ha, hu, lossy_stray (first_tail hb),
      lossy_stray (first_tail hc)]
    exact congrArg (replacement ++ ·) hon

/-- The text begins with bytes that are put as U+FFFD: three that are put as one, and another with the next two,
    which are put as two on their own. -/
def Swallows (p : Bytes) : Prop := ∃ u a b c r, p = u ++ a :: b :: c :: r ∧ u.length = 3 ∧ (Cut u ∨ u = replacement) ∧
  ([a, b, c] = replacement ∨ Cut [a, b, c] ∧ ∀ d ∈ r.head?, ¬Tail d)

/-- A text is decoded as what follows its first four bytes only if it is empty, or swallows them. -/
theorem lossy_eq_drop_four_iff : lossy p = lossy (p.drop 4) ↔ p = [] ∨ Swallows p := by
  by_cases hlen : p.length < 4
  · rw [List.drop_of_length_le (Nat.le_of_lt hlen), lossy_nil, lossy_eq_nil_iff]
    refine (or_iff_left ?_).symm
    rintro ⟨u, a, b, c, r, rfl, hu, -⟩
    simp at hlen
    omega
  · have hne : p ≠ [] := by
      rintro rfl
      exact hlen (by decide)
    have hs : (p.take 4).length = 4 := by simp; omega
    have hright := lossy_append_eq_right_iff (t := p.drop 4) hs
    rw [List.take_append_drop] at hright
    rw [hright, or_iff_right hne]
    constructor
    · rintro ⟨u, a, b, c, r, htake, hdrop, h⟩
      refine ⟨u, a, b, c, r, ?_, ?_, h⟩
      · rw [← List.take_append_drop 4 p, htake, hdrop, List.append_assoc, List.singleton_append]
      · have hlen := congrArg List.length htake
        simp at hlen
        omega
    · rintro ⟨u, a, b, c, r, rfl, hu, h⟩
      exact ⟨u, a, b, c, r,
        by simp [List.take_append, hu, List.take_of_length_le (Nat.le_of_eq hu |>.trans (by decide : 3 ≤ 4))],
        by simp [List.drop_append, hu], h⟩

end
end Utf8
end CoreSplitter
