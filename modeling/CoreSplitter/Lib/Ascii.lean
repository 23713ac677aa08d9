import Mathlib.Data.List.Basic
import CoreSplitter.Lib.Bytes
import CoreSplitter.Lib.Lists

/-! Text of printable characters: what is told apart by where a word ends, and hexadecimal digits. -/

namespace CoreSplitter
namespace Bytes

/-- A graphic character of ASCII, or a space. -/
def printable (b : UInt8) : Bool := decide (0x20 ≤ b) && decide (b ≤ 0x7E)

/-- A character of a word, which ends with a space or a colon. -/
def InWord (b : UInt8) : Prop := printable b = true ∧ b ≠ 0x20 ∧ b ≠ 0x3A

instance : DecidablePred InWord := fun b => inferInstanceAs (Decidable (printable b = true ∧ b ≠ 0x20 ∧ b ≠ 0x3A))

/-- The bytes of a text as its string holds them, which the kernel reads quickly. -/
theorem text_eq {s : String} : text s = s.toByteArray.data.toList := by
  rw [← String.utf8Encode_toList, List.utf8Encode, List.toList_data_toByteArray, text]

/-! ### Words -/

section
variable {α : Type} {p : α → Prop} {w w' r r' : List α} {s s' : α}

/-- A text that is over, or goes on with a character that ends words. -/
def Ends (p : α → Prop) (r : List α) : Prop := ∀ a, r.head? = some a → p a

/-- The first word of a text. -/
theorem word_unique (heq : w ++ r = w' ++ r') (hw : ∀ a ∈ w, ¬p a) (hw' : ∀ a ∈ w', ¬p a) (hr : Ends p r)
    (hr' : Ends p r') : w = w' ∧ r = r' := by
  induction w generalizing w' with
  | nil =>
    cases w' with
    | nil => exact ⟨rfl, heq⟩
    | cons a w' => exact absurd (hr a (by rw [show r = a :: (w' ++ r') from heq]; rfl)) (hw' a List.mem_cons_self)
  | cons a w ih =>
    cases w' with
    | nil => exact absurd (hr' a (by rw [show r' = a :: (w ++ r) from heq.symm]; rfl)) (hw a List.mem_cons_self)
    | cons a' w' =>
      obtain ⟨rfl, hrest⟩ := List.cons.inj heq
      obtain ⟨rfl, rfl⟩ := ih hrest (fun b hb => hw b (List.mem_cons_of_mem _ hb)) fun b hb =>
        hw' b (List.mem_cons_of_mem _ hb)
      exact ⟨rfl, rfl⟩

/-- The last word of a text. -/
theorem last_word_unique (heq : r ++ s :: w = r' ++ s' :: w') (hs : p s) (hs' : p s') (hw : ∀ a ∈ w, ¬p a)
    (hw' : ∀ a ∈ w', ¬p a) : w = w' :=
  (last_unique heq hs hs' hw hw').2.2

end

/-! ### Hexadecimal digits -/

section
variable {p q : Bytes}

theorem hexEncode_cons {b : UInt8} : hexEncode (b :: p) = hexDigit (b.toNat / 16) :: hexDigit (b.toNat % 16) ::
    hexEncode p := rfl

theorem hexDigit_inj : ∀ m < 16, ∀ n < 16, hexDigit m = hexDigit n → m = n := by decide

theorem hexDigit_word : ∀ n < 16, InWord (hexDigit n) := by decide

theorem hexEncode_injective (h : hexEncode p = hexEncode q) : p = q := by
  induction p generalizing q with
  | nil =>
    cases q with
    | nil => rfl
    | cons b q => cases h
  | cons a p ih =>
    cases q with
    | nil => cases h
    | cons b q =>
      rw [hexEncode_cons, hexEncode_cons] at h
      obtain ⟨hhigh, h⟩ := List.cons.inj h
      obtain ⟨hlow, h⟩ := List.cons.inj h
      have ha := a.toNat_lt
      have hb := b.toNat_lt
      have hdiv : a.toNat / 16 = b.toNat / 16 := hexDigit_inj _ (by omega) _ (by omega) hhigh
      have hmod : a.toNat % 16 = b.toNat % 16 := hexDigit_inj _ (by omega) _ (by omega) hlow
      have hsame : a = b := UInt8.toNat_inj.mp (by omega)
      rw [hsame, ih h]

theorem hexEncode_word : ∀ b ∈ hexEncode p, InWord b := by
  intro b hb
  obtain ⟨a, -, ha⟩ := List.mem_flatMap.mp hb
  have hlt := a.toNat_lt
  rcases List.mem_cons.mp ha with rfl | ha
  · exact hexDigit_word _ (by omega)
  · obtain rfl := List.mem_singleton.mp ha
    exact hexDigit_word _ (by omega)

end
end Bytes
end CoreSplitter
