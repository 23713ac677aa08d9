import CoreSplitter.Theorems.Layout

/-! What is left of a message when it changes its layout on the way: the message itself, but not the SNR. -/

namespace CoreSplitter
open Bytes

/-! ### One conversion after another -/

/-- A message that carries SNR and reserved bytes. -/
def HasSnr (frame : Bytes) : Prop := (frame.head? = some 0x10 ∨ frame.head? = some 0x11) ∧ 4 ≤ frame.length

/-- A message of the layout without them. -/
def LacksSnr (frame : Bytes) : Prop := frame.head? = some 0x07 ∨ frame.head? = some 0x08

instance {frame : Bytes} : Decidable (HasSnr frame) := inferInstanceAs (Decidable (_ ∧ _))

instance {frame : Bytes} : Decidable (LacksSnr frame) := inferInstanceAs (Decidable (_ ∨ _))

/-- The frame with SNR and reserved bytes set to zero. -/
def clearSnr (frame : Bytes) : Bytes := frame.take 1 ++ 0 :: 0 :: 0 :: frame.drop 4

/-- What comes out of a chain of proxies that hand the frame on in one layout after the other. -/
def relayed (hops : List UInt8) (frame : Bytes) : Bytes :=
  hops.foldl (fun frame version => messageFrameFor version frame) frame

section
variable {v w : UInt8} {frame rest : Bytes} {code : UInt8} {hops : List UInt8}

theorem HasSnr.not_lacks (h : HasSnr frame) : ¬LacksSnr frame := by
  rintro (hcode | hcode) <;> rcases h.1 with h | h <;> rw [h] at hcode <;> cases hcode

@[simp] theorem clearSnr_clearSnr (h : HasSnr frame) : clearSnr (clearSnr frame) = clearSnr frame := by
  obtain ⟨-, hlen⟩ := h
  cases frame with
  | nil => cases hlen
  | cons code rest => simp [clearSnr]

theorem messageFrameFor_cons : messageFrameFor v (code :: rest) =
    if (code = 0x10 ∨ code = 0x11) ∧ ¬v ≥ 3 ∧ (code :: rest).length ≥ 4 then (code - 0x09) :: (code :: rest).drop 4
    else if (code = 0x07 ∨ code = 0x08) ∧ v ≥ 3 then (code + 0x09) :: 0 :: 0 :: 0 :: rest
    else code :: rest := rfl

/-- From version 3 on a message is padded, if it lacks SNR. -/
theorem messageFrameFor_pads (hv : 3 ≤ v) (h : LacksSnr frame) :
    ∃ code rest, frame = code :: rest ∧ messageFrameFor v frame = (code + 0x09) :: 0 :: 0 :: 0 :: rest := by
  cases frame with
  | nil => rcases h with h | h <;> cases h
  | cons code rest =>
    have hcode : code = 0x07 ∨ code = 0x08 := h.imp Option.some.inj Option.some.inj
    refine ⟨code, rest, rfl, ?_⟩
    rw [messageFrameFor_cons, if_neg (fun hcut => hcut.2.1 hv), if_pos ⟨hcode, hv⟩]

/-- Below version 3 a message is cut, if it has SNR. -/
theorem messageFrameFor_cuts (hv : v < 3) (h : HasSnr frame) :
    ∃ code rest, frame = code :: rest ∧ messageFrameFor v frame = (code - 0x09) :: frame.drop 4 := by
  obtain ⟨hcode, hlen⟩ := h
  cases frame with
  | nil => cases hlen
  | cons code rest =>
    have hcode : code = 0x10 ∨ code = 0x11 := hcode.imp Option.some.inj Option.some.inj
    refine ⟨code, rest, rfl, ?_⟩
    rw [messageFrameFor_cons, if_pos ⟨hcode, UInt8.not_le.mpr hv, hlen⟩]

theorem messageFrameFor_keeps_v3 (hv : 3 ≤ v) (h : ¬LacksSnr frame) : messageFrameFor v frame = frame := by
  cases frame with
  | nil => rfl
  | cons code rest =>
    have hcode : ¬(code = 0x07 ∨ code = 0x08) := fun hcode => h (hcode.imp (congrArg some) (congrArg some))
    rw [messageFrameFor_cons, if_neg (fun hcut => hcut.2.1 hv), if_neg fun hpad => hcode hpad.1]

theorem messageFrameFor_keeps_v1 (hv : v < 3) (h : ¬HasSnr frame) : messageFrameFor v frame = frame := by
  cases frame with
  | nil => rfl
  | cons code rest =>
    rw [messageFrameFor_cons, if_neg (fun hcut => h ⟨hcut.1.imp (congrArg some) (congrArg some), hcut.2.2⟩),
      if_neg fun hpad => UInt8.not_le.mpr hv hpad.2]

theorem LacksSnr.padded (h : LacksSnr (code :: rest)) : HasSnr ((code + 0x09) :: 0 :: 0 :: 0 :: rest) := by
  refine ⟨?_, by simp⟩
  rcases h with h | h <;> cases h
  · exact Or.inl rfl
  · exact Or.inr rfl

theorem HasSnr.cut (h : HasSnr (code :: rest)) (t : Bytes) :
    LacksSnr ((code - 0x09) :: t) ∧ code - 0x09 + 0x09 = code := by
  obtain ⟨hcode, -⟩ := h
  rcases hcode with hcode | hcode <;> cases hcode
  · exact ⟨Or.inl rfl, rfl⟩
  · exact ⟨Or.inr rfl, rfl⟩

/-- Padded and cut again, a message is what it was. -/
theorem messageFrameFor_back (hv : v < 3) (h : LacksSnr frame) :
    messageFrameFor v (messageFrameFor w frame) = frame := by
  have hkeep : messageFrameFor v frame = frame := messageFrameFor_keeps_v1 hv fun hsnr => hsnr.not_lacks h
  rcases UInt8.lt_or_le w 3 with hw | hw
  · rw [messageFrameFor_keeps_v1 hw fun hsnr => hsnr.not_lacks h, hkeep]
  · obtain ⟨code, rest, rfl, hpad⟩ := messageFrameFor_pads hw h
    obtain ⟨code', rest', heq, hcut⟩ := messageFrameFor_cuts hv h.padded
    cases heq
    have hcode : code + 0x09 - 0x09 = code := by
      rcases h with h | h <;> cases h <;> rfl
    rw [hpad, hcut, hcode]
    rfl

/-- Cut and padded again, it has lost its SNR. -/
theorem messageFrameFor_forth (hv : 3 ≤ v) (hw : w < 3) (h : HasSnr frame) :
    messageFrameFor v (messageFrameFor w frame) = clearSnr frame := by
  obtain ⟨code, rest, rfl, hcut⟩ := messageFrameFor_cuts hw h
  obtain ⟨hlacks, hcode⟩ := h.cut ((code :: rest).drop 4)
  obtain ⟨code', rest', heq, hpad⟩ := messageFrameFor_pads hv hlacks
  cases heq
  rw [hcut, hpad, hcode]
  rfl

theorem messageFrameFor_after_v1 (hv : v < 3) :
    messageFrameFor v (messageFrameFor w frame) = messageFrameFor v frame := by
  by_cases hlacks : LacksSnr frame
  · rw [messageFrameFor_back hv hlacks, messageFrameFor_keeps_v1 hv fun hsnr => hsnr.not_lacks hlacks]
  · rcases UInt8.lt_or_le w 3 with hw | hw
    · by_cases hsnr : HasSnr frame
      · obtain ⟨code, rest, rfl, hcut⟩ := messageFrameFor_cuts hw hsnr
        obtain ⟨code', rest', heq, hcut'⟩ := messageFrameFor_cuts hv hsnr
        cases heq
        rw [hcut, hcut', messageFrameFor_keeps_v1 hv fun h => h.not_lacks (hsnr.cut _).1]
      · rw [messageFrameFor_keeps_v1 hw hsnr]
    · rw [messageFrameFor_keeps_v3 hw hlacks]

theorem messageFrameFor_after_v3 (hv : 3 ≤ v) :
    messageFrameFor v (messageFrameFor w frame) = if w < 3 ∧ HasSnr frame then clearSnr frame
    else messageFrameFor v frame := by
  split
  · rename_i h
    exact messageFrameFor_forth hv h.1 h.2
  · rename_i h
    rcases UInt8.lt_or_le w 3 with hw | hw
    · rw [messageFrameFor_keeps_v1 hw fun hsnr => h ⟨hw, hsnr⟩]
    · by_cases hlacks : LacksSnr frame
      · obtain ⟨code, rest, rfl, hpad⟩ := messageFrameFor_pads hw hlacks
        obtain ⟨code', rest', heq, hpad'⟩ := messageFrameFor_pads hv hlacks
        cases heq
        rw [hpad, hpad', messageFrameFor_keeps_v3 hv hlacks.padded.not_lacks]
      · rw [messageFrameFor_keeps_v3 hw hlacks]

theorem relayed_concat : relayed (hops ++ [w]) frame = messageFrameFor w (relayed hops frame) := by
  rw [relayed, List.foldl_concat]
  rfl

theorem clearSnr_pads (hv : 3 ≤ v) (h : LacksSnr frame) :
    clearSnr (messageFrameFor v frame) = messageFrameFor v frame := by
  obtain ⟨code, rest, rfl, hpad⟩ := messageFrameFor_pads hv h
  rw [hpad]
  rfl

theorem messageFrameFor_relayed_v1 (hv : v < 3) : messageFrameFor v (relayed hops frame) = messageFrameFor v frame := by
  induction hops using List.reverseRecOn with
  | nil => rfl
  | append_singleton hops w ih => rw [relayed_concat, messageFrameFor_after_v1 hv, ih]

theorem messageFrameFor_relayed_v3 (hv : 3 ≤ v) : messageFrameFor v (relayed hops frame) =
    if (∃ w ∈ hops, w < 3) ∧ HasSnr frame then clearSnr frame else messageFrameFor v frame := by
  induction hops using List.reverseRecOn with
  | nil => simp [relayed]
  | append_singleton hops w ih =>
    rw [relayed_concat, messageFrameFor_after_v3 hv]
    generalize relayed hops frame = carried at ih
    by_cases hcut : w < 3 ∧ HasSnr carried
    · -- What came so far has an SNR, and loses it here.
      rw [messageFrameFor_keeps_v3 hv hcut.2.not_lacks] at ih
      rw [if_pos hcut, ih]
      by_cases hsnr : HasSnr frame
      · have hthen : (∃ w' ∈ hops ++ [w], w' < 3) ∧ HasSnr frame := ⟨⟨w, by simp, hcut.1⟩, hsnr⟩
        rw [if_pos hthen]
        split
        · exact clearSnr_clearSnr hsnr
        · rw [messageFrameFor_keeps_v3 hv hsnr.not_lacks]
      · rw [if_neg fun h => hsnr h.2, if_neg fun h => hsnr h.2]
        by_cases hlacks : LacksSnr frame
        · exact clearSnr_pads hv hlacks
        · rw [if_neg (fun h => hsnr h.2), messageFrameFor_keeps_v3 hv hlacks] at ih
          exact absurd (ih ▸ hcut.2) hsnr
    · rw [if_neg hcut, ih]
      by_cases hbefore : (∃ w ∈ hops, w < 3) ∧ HasSnr frame
      · obtain ⟨⟨w', hw', hlt⟩, hsnr⟩ := hbefore
        rw [if_pos ⟨⟨w', hw', hlt⟩, hsnr⟩, if_pos ⟨⟨w', by simp [hw'], hlt⟩, hsnr⟩]
      · rw [if_neg hbefore] at ih ⊢
        split
        · rename_i h
          obtain ⟨⟨w', hw', hlt⟩, hsnr⟩ := h
          have hw : w < 3 := by
            rcases List.mem_append.mp hw' with hw' | hw'
            · exact absurd ⟨⟨w', hw', hlt⟩, hsnr⟩ hbefore
            · exact List.mem_singleton.mp hw' ▸ hlt
          -- What came so far lacks an SNR, so the frame had none but zeros.
          have hlacks : LacksSnr carried := by
            by_contra hlacks
            rw [messageFrameFor_keeps_v3 hv hlacks, messageFrameFor_keeps_v3 hv hsnr.not_lacks] at ih
            exact hcut ⟨hw, ih ▸ hsnr⟩
          have hclear := clearSnr_pads hv hlacks
          rw [ih, messageFrameFor_keeps_v3 hv hsnr.not_lacks] at hclear
          rw [hclear, messageFrameFor_keeps_v3 hv hsnr.not_lacks]
        · rfl

theorem messageFrameFor_other (hcode : frame.head? = some code) (hother : code ∉ [0x07, 0x08, 0x10, 0x11]) :
    messageFrameFor w frame = frame := by
  have hne {c : UInt8} (hc : c ∈ [0x07, 0x08, 0x10, 0x11]) : frame.head? ≠ some c := by
    rw [hcode]
    rintro ⟨⟩
    exact hother hc
  rcases UInt8.lt_or_le w 3 with hw | hw
  · exact messageFrameFor_keeps_v1 hw fun h => h.1.elim (hne (by simp)) (hne (by simp))
  · exact messageFrameFor_keeps_v3 hw fun h => h.elim (hne (by simp)) (hne (by simp))

/-- However a frame was converted on the way, a client below version 3 gets the same message, and from version 3 on
    too but for the SNR. -/
theorem conversions_compose (frame : Bytes) (v : UInt8) :
    (∀ w, (v < 3 → messageFrameFor v (messageFrameFor w frame) = messageFrameFor v frame) ∧
      (3 ≤ v → messageFrameFor v (messageFrameFor w frame) =
        if w < 3 ∧ HasSnr frame then clearSnr frame else messageFrameFor v frame) ∧
      (v < 3 → 3 ≤ w → LacksSnr frame → messageFrameFor v (messageFrameFor w frame) = frame)) ∧
    (∀ code, frame.head? = some code → code ∉ [0x07, 0x08, 0x10, 0x11] → messageFrameFor v frame = frame) ∧
    ∀ hops, (v < 3 → messageFrameFor v (relayed hops frame) = messageFrameFor v frame) ∧
      (3 ≤ v → messageFrameFor v (relayed hops frame) =
        if (∃ w ∈ hops, w < 3) ∧ HasSnr frame then clearSnr frame else messageFrameFor v frame) :=
  ⟨fun _ => ⟨messageFrameFor_after_v1, messageFrameFor_after_v3, fun hv _ => messageFrameFor_back hv⟩,
    fun _ => messageFrameFor_other, fun _ => ⟨messageFrameFor_relayed_v1, messageFrameFor_relayed_v3⟩⟩

end
end CoreSplitter
