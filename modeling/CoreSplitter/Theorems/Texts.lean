import CoreSplitter.Lib.Utf8Pieces
import CoreSplitter.Theorems.Conversions
import CoreSplitter.Theorems.Sessions

/-! What becomes of texts: what is stored of a message in either layout, the names that are read from contacts and
    channels, and the text of an echo. -/

namespace CoreSplitter
open Bytes

namespace Core

/-! ### Messages in either layout -/

/-- A message with SNR whose header is complete. -/
def IsV3 (frame : Bytes) : Prop :=
  frame.head? = some 0x10 ∧ 16 ≤ frame.length ∨ frame.head? = some 0x11 ∧ 11 ≤ frame.length

/-- A frame of the radio is put into the cache. -/
def Caches (c : Core) (env : Env) (frame : Bytes) (c₁ : Core) : Prop :=
  ∃ code, frame.head? = some code ∧ c.cacheResponse env code frame = .ok c₁

/-- Two frames are stored as the same message, or neither is stored as one. -/
def StoredAlike (c c₁ c₂ : Core) : Prop := c₁.db.messages = c.db.messages ∧ c₂.db.messages = c.db.messages ∨
  ∃ m m', c₁.db.messages = c.db.messages ++ [m] ∧ c₂.db.messages = c.db.messages ++ [m'] ∧ m.msgType = m'.msgType ∧
    m.fromKey = m'.fromKey ∧ m.channelIdx = m'.channelIdx ∧ m.timestamp = m'.timestamp ∧ m.text = m'.text

/-- The text of the message is not empty, if it is one of a channel; if it is a signed one of a contact, nothing
    follows the header, or the text swallows the signature. -/
def TextKept (frame : Bytes) : Prop := (frame.head? = some 0x11 → 11 < frame.length) ∧
  (frame.head? = some 0x10 → frame[11]? = some 2 → frame.length = 16 ∨ Utf8.Swallows (frame.drop 16))

section
variable {c : Core} {p frame : Bytes} {env : Env}

/-- What is decoded of a CONTACT_MSG_RECV. -/
theorem decode_contactMsg (env : Env) (h : 13 ≤ p.length) : ∃ d, decodeResponsePayload 0x07 p = .ok (some d) ∧
    textOf d = Utf8.lossy (p.drop 13) ∧ timestampOf env d = leNat (slice p 9 13 ⟨by decide, h⟩) := by
  have hne : p.isEmpty = false := List.isEmpty_eq_false_iff.mpr (List.ne_nil_of_length_pos (by omega))
  unfold decodeResponsePayload
  rw [hne]
  simp (disch := omega) only [decodeResponseFields, guarded, ge_iff_le, h, if_true, hexAt_ok, byteAt_ok,
    u32At_ok, lossyFrom_ok, tryIndex_ok, Except.bind_ok_eq, Except.pure_eq]
  exact ⟨_, rfl, rfl, rfl⟩

/-- What is decoded of a CHANNEL_MSG_RECV, if there is a text. -/
theorem decode_channelMsg (env : Env) (h : 9 ≤ p.length) : ∃ d, decodeResponsePayload 0x08 p = .ok (some d) ∧
    textOf d = Utf8.lossy (p.drop 8) ∧ timestampOf env d = leNat (slice p 4 8 ⟨by decide, by omega⟩) ∧
    d.get "channel" = some (.integer p[1].toNat) := by
  have hne : p.isEmpty = false := List.isEmpty_eq_false_iff.mpr (List.ne_nil_of_length_pos (by omega))
  unfold decodeResponsePayload
  rw [hne]
  simp (disch := omega) only [decodeResponseFields, guarded, ge_iff_le, h, if_true, byteAt_ok, u32At_ok,
    lossyFrom_ok, tryIndex_ok, Except.bind_ok_eq, Except.pure_eq]
  exact ⟨_, rfl, rfl, rfl, rfl⟩

/-- A CHANNEL_MSG_RECV with an empty text is not decoded. -/
theorem decode_channelMsg_empty (hne : p ≠ []) (h : p.length < 9) : decodeResponsePayload 0x08 p = .ok none := by
  unfold decodeResponsePayload
  rw [List.isEmpty_eq_false_iff.mpr hne]
  simp only [decodeResponseFields, guarded, ge_iff_le, Nat.not_le.mpr h, if_false]
  rfl

theorem caches_contactMsg (c : Core) (env : Env) (h : 13 ≤ (0x07 :: p).length) :
    ∃ msg, c.Caches env (0x07 :: p) (c.storeMessage env msg) ∧
    msg.msgType = .contact ∧ msg.fromKey = some (p.take 6) ∧ msg.channelIdx = none ∧
    msg.timestamp = leNat ((p.drop 8).take 4) ∧ msg.text = Utf8.lossy (p.drop 12) := by
  obtain ⟨d, hdecode, htext, htime⟩ := decode_contactMsg env h
  refine ⟨contactMsg env (0x07 :: p) d, ⟨0x07, rfl, ?_⟩, rfl, dif_pos (by omega), rfl, htime, htext⟩
  rw [cacheResponse, hdecode]
  rfl

theorem caches_channelMsg (c : Core) (env : Env) (h : 9 ≤ (0x08 :: p).length) :
    ∃ msg, c.Caches env (0x08 :: p) (c.storeMessage env msg) ∧
    msg.msgType = .channel ∧ msg.fromKey = none ∧ msg.channelIdx = (p.head?.map fun b => (b.toNat : Int)) ∧
    msg.timestamp = leNat ((p.drop 3).take 4) ∧ msg.text = Utf8.lossy (p.drop 7) := by
  obtain ⟨d, hdecode, htext, htime, hchannel⟩ := decode_channelMsg env h
  refine ⟨channelMsg env (0x08 :: p) d, ⟨0x08, rfl, ?_⟩, rfl, rfl, ?_, htime, htext⟩
  · rw [cacheResponse, hdecode]
    rfl
  · cases p with
    | nil => simp at h
    | cons b p =>
      rw [channelMsg, hchannel]
      rfl

theorem caches_channelMsg_empty (c : Core) (env : Env) (h : (0x08 :: p).length < 9) : c.Caches env (0x08 :: p) c := by
  refine ⟨0x08, rfl, ?_⟩
  rw [cacheResponse, decode_channelMsg_empty (List.cons_ne_nil _ _) h]
  rfl

theorem storedAlike_iff {msg msg' : NewMessage} (hok : env.dbOk .insertMessage = true) :
    StoredAlike c (c.storeMessage env msg) (c.storeMessage env msg') ↔
    msg.msgType = msg'.msgType ∧ msg.fromKey = msg'.fromKey ∧
      msg.channelIdx = msg'.channelIdx ∧ msg.timestamp = msg'.timestamp ∧ msg.text = msg'.text := by
  have hstored (msg : NewMessage) :
      (c.storeMessage env msg).db.messages = c.db.messages ++ [c.db.newRow env.unix msg] := by
    rcases storeMessage_cases c env msg with ⟨hno, -⟩ | ⟨-, -, hmessages, -⟩
    · rw [hok] at hno
      cases hno
    · exact hmessages
  unfold StoredAlike
  rw [hstored, hstored]
  constructor
  · rintro (⟨h, -⟩ | ⟨m, m', h, h', hfields⟩)
    · simp at h
    · obtain rfl := List.singleton_inj.mp (List.append_cancel_left h)
      obtain rfl := List.singleton_inj.mp (List.append_cancel_left h')
      exact hfields
  · exact fun hfields => Or.inr ⟨_, _, rfl, rfl, hfields⟩

theorem storedAlike_of_refused {msg msg' : NewMessage} (hno : env.dbOk .insertMessage = false) :
    StoredAlike c (c.storeMessage env msg) (c.storeMessage env msg') := by
  have hsame (msg : NewMessage) : c.storeMessage env msg = c := if_neg (by simp [hno])
  rw [hsame, hsame]
  exact Or.inl ⟨rfl, rfl⟩

/-- A message is stored alike in the layout with SNR and in that without if and only if the database refuses it, or
    its text is where both expect it. -/
theorem layouts_stored_alike_iff (c : Core) (env : Env) (h : IsV3 frame) : ∃ c₁ c₂, c.Caches env frame c₁ ∧
    c.Caches env (messageFrameFor 0 frame) c₂ ∧
    (StoredAlike c c₁ c₂ ↔ env.dbOk .insertMessage = false ∨ TextKept frame) := by
  have hsnr : HasSnr frame := by
    rcases h with ⟨hcode, hlen⟩ | ⟨hcode, hlen⟩
    · exact ⟨Or.inl hcode, by omega⟩
    · exact ⟨Or.inr hcode, by omega⟩
  obtain ⟨code, rest, rfl, hcut⟩ := messageFrameFor_cuts (v := 0) (by decide) hsnr
  rw [hcut]
  rcases h with ⟨hcode, hlen⟩ | ⟨hcode, hlen⟩ <;> cases hcode
  · obtain ⟨msg, hcaches, htype, hkey, hchannel, hstamp, htext⟩ :=
      caches_contactMsg c env (p := (0x10 :: rest).drop 4) (by
      simp at hlen ⊢
      omega)
    refine ⟨_, _, ⟨0x10, rfl, congrArg Except.ok (dif_pos hlen)⟩, hcaches, ?_⟩
    cases hok : env.dbOk .insertMessage with
    | false => exact iff_of_true (storedAlike_of_refused hok) (Or.inl rfl)
    | true =>
      rw [storedAlike_iff hok, htype, hkey, hchannel, hstamp, htext]
      have hstamp' :
          (contactMsgV3 (0x10 :: rest) hlen).timestamp = leNat ((((0x10 :: rest).drop 4).drop 8).take 4) := by
        rw [List.drop_drop]
        rfl
      have hiff : (contactMsgV3 (0x10 :: rest) hlen).text = Utf8.lossy (((0x10 :: rest).drop 4).drop 12) ↔
          TextKept (0x10 :: rest) := by
        rw [List.drop_drop]
        show Utf8.lossy ((0x10 :: rest).drop (if (0x10 :: rest)[11] = 2 then 20 else 16)) =
          Utf8.lossy ((0x10 :: rest).drop 16) ↔ _
        by_cases hsigned : (0x10 :: rest)[11] = 2
        · have hswallows := Utf8.lossy_eq_drop_four_iff (p := (0x10 :: rest).drop 16)
          rw [List.drop_drop, List.drop_eq_nil_iff] at hswallows
          rw [if_pos hsigned, eq_comm, hswallows]
          have hget : (0x10 :: rest)[11]? = some 2 := (List.getElem?_eq_getElem _).trans (congrArg some hsigned)
          constructor
          · exact fun h => ⟨nofun, fun _ _ => h.imp_left fun hle => Nat.le_antisymm hle hlen⟩
          · exact fun h => (h.2 rfl hget).imp_left Nat.le_of_eq
        · have hget : (0x10 :: rest)[11]? ≠ some 2 :=
            fun h => hsigned (Option.some.inj ((List.getElem?_eq_getElem _).symm.trans h))
          rw [if_neg hsigned]
          exact iff_of_true rfl ⟨nofun, fun _ h => absurd h hget⟩
      rw [← hiff]
      constructor
      · exact fun h => Or.inr h.2.2.2.2
      · exact fun h => ⟨rfl, rfl, rfl, hstamp', h.resolve_left nofun⟩
  · have hcaches : c.Caches env (0x11 :: rest) (c.storeMessage env (channelMsgV3 (0x11 :: rest) hlen)) :=
      ⟨0x11, rfl, congrArg Except.ok (dif_pos hlen)⟩
    by_cases htext : 12 ≤ (0x11 :: rest).length
    · obtain ⟨msg, hcaches', htype, hkey, hchannel, hstamp, htext'⟩ :=
        caches_channelMsg c env (p := (0x11 :: rest).drop 4) (by
        simp at htext ⊢
        omega)
      refine ⟨_, _, hcaches, hcaches', ?_⟩
      cases hok : env.dbOk .insertMessage with
      | false => exact iff_of_true (storedAlike_of_refused hok) (Or.inl rfl)
      | true =>
        rw [storedAlike_iff hok, htype, hkey, hchannel, hstamp, htext', List.drop_drop, List.drop_drop, List.head?_drop,
          List.getElem?_eq_getElem (by omega)]
        exact iff_of_true ⟨rfl, rfl, rfl, rfl, rfl⟩ (Or.inr ⟨fun _ => htext, nofun⟩)
    · have hcaches' := caches_channelMsg_empty c env (p := (0x11 :: rest).drop 4) (by
        simp at htext ⊢
        omega)
      refine ⟨_, _, hcaches, hcaches', ?_⟩
      rcases storeMessage_cases c env (channelMsgV3 (0x11 :: rest) hlen) with ⟨hok, hsame⟩ | ⟨hok, -, hmessages, -⟩
      · rw [hsame]
        exact iff_of_true (Or.inl ⟨rfl, rfl⟩) (Or.inl hok)
      · refine iff_of_false ?_ ?_
        · rintro (⟨h, -⟩ | ⟨_, _, -, h, -⟩)
          · rw [hmessages] at h
            simp at h
          · simp at h
        · rintro (hno | hkept)
          · rw [hok] at hno
            cases hno
          · exact htext (hkept.1 rfl)

theorem not_storedAlike {c₁ c₂ : Core} (hstored : c₁.db.messages ≠ c.db.messages)
    (htext : c₁.db.messages.map (·.text) ≠ c₂.db.messages.map (·.text)) : ¬StoredAlike c c₁ c₂ := by
  rintro (⟨h, -⟩ | ⟨m, m', h, h', -, -, -, -, heq⟩)
  · exact hstored h
  · rw [h, h', List.map_append, List.map_append, List.map_singleton, List.map_singleton, heq] at htext
    exact htext rfl

/-- A core on an empty database. -/
def blank : Core := .new ⟨.off, true, false, ⟨0, 0, 0, 0⟩, .off⟩ .empty

/-- A channel message with a text. -/
theorem layouts_stored_alike_text : ∃ c₁ c₂, blank.Caches sound [0x11, 40, 0, 0, 3, 0, 0, 1, 0, 0, 0, 0x68] c₁ ∧
    blank.Caches sound [0x08, 3, 0, 0, 1, 0, 0, 0, 0x68] c₂ ∧ StoredAlike blank c₁ c₂ := by
  obtain ⟨c₁, c₂, h₁, h₂, hiff⟩ := layouts_stored_alike_iff blank sound
    (show IsV3 [0x11, 40, 0, 0, 3, 0, 0, 1, 0, 0, 0, 0x68] from Or.inr ⟨rfl, by decide⟩)
  exact ⟨c₁, c₂, h₁, h₂, hiff.mpr (Or.inr ⟨fun _ => by decide, nofun⟩)⟩

/-- A channel message without a text is stored in the layout with SNR only; of a signed message of a contact the
    signature is stored as part of the text, in the other layout. -/
theorem layouts_stored_apart : (IsV3 [0x11, 40, 0, 0, 3, 0, 0, 1, 0, 0, 0] ∧ ∃ c₁ c₂,
      blank.Caches sound [0x11, 40, 0, 0, 3, 0, 0, 1, 0, 0, 0] c₁ ∧
      blank.Caches sound (messageFrameFor 0 [0x11, 40, 0, 0, 3, 0, 0, 1, 0, 0, 0]) c₂ ∧ ¬StoredAlike blank c₁ c₂) ∧
    IsV3 [0x10, 40, 0, 0, 1, 2, 3, 4, 5, 6, 0, 2, 1, 0, 0, 0, 7, 7, 7, 7, 0x68] ∧ ∃ c₁ c₂,
      blank.Caches sound [0x10, 40, 0, 0, 1, 2, 3, 4, 5, 6, 0, 2, 1, 0, 0, 0, 7, 7, 7, 7, 0x68] c₁ ∧
      blank.Caches sound (messageFrameFor 0 [0x10, 40, 0, 0, 1, 2, 3, 4, 5, 6, 0, 2, 1, 0, 0, 0, 7, 7, 7, 7, 0x68]) c₂ ∧
      ¬StoredAlike blank c₁ c₂ := by
  constructor
  · have hrun : Except.Holds (do
        let c₁ ← blank.cacheResponse sound 0x11 [0x11, 40, 0, 0, 3, 0, 0, 1, 0, 0, 0]
        let c₂ ← blank.cacheResponse sound 0x08 [0x08, 3, 0, 0, 1, 0, 0, 0]
        return (c₁, c₂)) fun (c₁, c₂) => c₁.db.messages ≠ [] ∧
            c₁.db.messages.map (·.text) ≠ c₂.db.messages.map (·.text) := by
      decide +kernel
    obtain ⟨⟨c₁, c₂⟩, hrun, hstored, htext⟩ := hrun
    obtain ⟨_, h₁, hrun⟩ := Except.of_bind_eq_ok hrun
    obtain ⟨_, h₂, hrun⟩ := Except.of_bind_eq_ok hrun
    cases hrun
    exact ⟨Or.inr ⟨rfl, by decide⟩, c₁, c₂, ⟨_, rfl, h₁⟩, ⟨_, rfl, h₂⟩, not_storedAlike hstored htext⟩
  · have hrun : Except.Holds (do
        let c₁ ← blank.cacheResponse sound 0x10 [0x10, 40, 0, 0, 1, 2, 3, 4, 5, 6, 0, 2, 1, 0, 0, 0, 7, 7, 7, 7, 0x68]
        let c₂ ← blank.cacheResponse sound 0x07 [0x07, 1, 2, 3, 4, 5, 6, 0, 2, 1, 0, 0, 0, 7, 7, 7, 7, 0x68]
        return (c₁, c₂)) fun (c₁, c₂) => c₁.db.messages ≠ [] ∧
            c₁.db.messages.map (·.text) ≠ c₂.db.messages.map (·.text) := by
      decide +kernel
    obtain ⟨⟨c₁, c₂⟩, hrun, hstored, htext⟩ := hrun
    obtain ⟨_, h₁, hrun⟩ := Except.of_bind_eq_ok hrun
    obtain ⟨_, h₂, hrun⟩ := Except.of_bind_eq_ok hrun
    cases hrun
    exact ⟨Or.inl ⟨rfl, by decide⟩, c₁, c₂, ⟨_, rfl, h₁⟩, ⟨_, rfl, h₂⟩, not_storedAlike hstored htext⟩

end

/-! ### Names of contacts and channels -/

/-- The name that is decoded of a frame. -/
def NameDecoded (frame name : Bytes) : Prop :=
  ∃ code d, frame.head? = some code ∧ decodeResponsePayload code frame = .ok (some d) ∧
  d.get "name" = some (.string name)

/-- The first NUL from a contact's name on is in the name, or its end is where the name ends, or what is between is
    part of the character the name is cut in. -/
def NameEnds (frame : Bytes) : Prop := 0 ∈ (frame.drop 100).take 32 ∨ 0 ∉ frame.drop 132 ∨ frame[132]? = some 0 ∨
  ∃ w q, (frame.drop 100).take 32 = w ++ q ∧ q ≠ [] ∧
    (Utf8.Cut (q ++ untilNul (frame.drop 132)) ∨ q ++ untilNul (frame.drop 132) = Utf8.replacement)

section
variable {p frame : Bytes}

theorem decode_contact (h : 148 ≤ p.length) : ∃ d, decodeResponsePayload 0x03 p = .ok (some d) ∧
    d.get "name" = some (.string (Utf8.lossy ((p.drop 100).take (((p.drop 100).findIdx? (· == 0)).getD 32)))) := by
  have hne : p.isEmpty = false := List.isEmpty_eq_false_iff.mpr (List.ne_nil_of_length_pos (by omega))
  have hlen : ((p.drop 100).findIdx? (· == 0)).getD 32 ≤ (p.drop 100).length := by
    cases hidx : (p.drop 100).findIdx? (· == 0) with
    | none =>
      rw [Option.getD_none, List.length_drop]
      omega
    | some i => exact Nat.le_of_lt (List.findIdx?_eq_some_iff_getElem.mp hidx).1
  have htail : tryFrom p 100 = .ok (p.drop 100) := by
    rw [tryFrom_ok (by omega), slice, ← List.length_drop, List.take_length]
  unfold decodeResponsePayload
  rw [hne]
  simp (disch := omega) only [decodeResponseFields, guarded, ge_iff_le, h, if_true, keyAt_ok, byteAt_ok, u32At_ok,
    i32ScaledAt_ok, tryIndex_ok, htail, Except.bind_ok_eq, Except.pure_eq]
  rw [tryRange_ok (Nat.zero_le _) hlen]
  exact ⟨_, rfl, rfl⟩

theorem decode_channelInfo (h : 50 ≤ p.length) : ∃ d, decodeResponsePayload 0x12 p = .ok (some d) ∧
    d.get "name" =
    some (.string (Utf8.lossy (((p.drop 2).take 32).take ((((p.drop 2).take 32).findIdx? (· == 0)).getD 32)))) := by
  have hne : p.isEmpty = false := List.isEmpty_eq_false_iff.mpr (List.ne_nil_of_length_pos (by omega))
  have hlen : (((p.drop 2).take 32).findIdx? (· == 0)).getD 32 ≤ 32 := by
    cases hidx : ((p.drop 2).take 32).findIdx? (· == 0) with
    | none => exact Nat.le_refl _
    | some i =>
      have := (List.findIdx?_eq_some_iff_getElem.mp hidx).1
      rw [List.length_take] at this
      exact Nat.le_trans (Nat.le_of_lt this) (Nat.min_le_left _ _)
  unfold decodeResponsePayload
  rw [hne]
  have hfield : tryRange p 2 34 = .ok ((p.drop 2).take 32) := tryRange_ok (by decide) (by omega)
  have h2 : p.length > 2 := by omega
  simp (disch := omega) only [decodeResponseFields, guarded, h2, if_true, byteAt_ok, hfield, Except.bind_ok_eq,
    Except.pure_eq]
  rw [tryRange_ok (Nat.le_add_right _ _) (by omega), slice, Nat.add_sub_cancel_left, List.take_take]
  rw [Nat.min_eq_left hlen]
  exact ⟨_, rfl, rfl⟩

/-- A contact or a channel, as far as the fields that are stored go. -/
def IsNamed (frame : Bytes) : Prop := frame.head? = some 0x03 ∧ 148 ≤ frame.length ∨ frame.head? = some 0x12 ∧
    50 ≤ frame.length

def nameField (frame : Bytes) : Bytes := (frame.drop (if frame.head? = some 0x03 then 100 else 2)).take 32

/-- The row of the frame's contact or channel has the name. -/
def NameStored (c : Core) (frame name : Bytes) : Prop :=
  (frame.head? = some 0x03 ∧ ∃ row, c.db.contacts.lookup ((frame.drop 1).take 32) = some row ∧
      row.contact.name = name) ∨
  (frame.head? = some 0x12 ∧ ∃ idx row, frame[1]? = some idx ∧ c.db.channels.lookup idx.toNat = some row ∧
      row.name = name)

/-- The row of a contact or a channel is written. -/
def rowCall (frame : Bytes) : DbCall := if frame.head? = some 0x03 then .upsertContact else .upsertChannel

/-- Up to its NUL, where the search for the NUL does not stop at the field's end. -/
theorem lossy_nameField_iff {x y : Bytes} (hx : x.length = 32) :
    Utf8.lossy ((x ++ y).take (((x ++ y).findIdx? (· == 0)).getD 32)) = Utf8.lossy (untilNul x) ↔
      0 ∈ x ∨ 0 ∉ y ∨ y.head? = some 0 ∨
      ∃ w q, x = w ++ q ∧ q ≠ [] ∧ (Utf8.Cut (q ++ untilNul y) ∨ q ++ untilNul y = Utf8.replacement) := by
  rw [take_nul]
  by_cases hmem : 0 ∈ x
  · rw [if_pos (List.mem_append_left y hmem), untilNul_append_of_mem hmem]
    exact iff_of_true rfl (Or.inl hmem)
  rw [or_iff_right hmem, untilNul_of_notMem hmem]
  by_cases hrest : 0 ∈ y
  · have hnil : untilNul y = [] ↔ y.head? = some 0 := by
      cases y with
      | nil => cases hrest
      | cons b y => simp [untilNul]
    rw [if_pos (List.mem_append_right x hrest), or_iff_right (not_not_intro hrest), untilNul_append_of_notMem hmem,
      Utf8.lossy_append_eq_left_iff, hnil]
  · have hno : 0 ∉ x ++ y := fun h => (List.mem_append.mp h).elim hmem hrest
    rw [if_neg hno, ← hx, List.take_left]
    exact iff_of_true rfl (Or.inl hrest)

/-- The name decoded of a contact or a channel is the one stored of it if and only if it is a channel, or the
    contact's name ends within its field. -/
theorem names_agree_iff (c : Core) (env : Env) (h : IsNamed frame) :
    ∃ name stored c₁, NameDecoded frame name ∧ c.Caches env frame c₁ ∧
    stored = Utf8.lossy (untilNul (nameField frame)) ∧ (env.dbOk (rowCall frame) = true → NameStored c₁ frame stored) ∧
    (name = stored ↔ frame.head? = some 0x12 ∨ NameEnds frame) := by
  rcases h with ⟨hcode, hlen⟩ | ⟨hcode, hlen⟩
  · obtain ⟨d, hdecode, hname⟩ := decode_contact hlen
    have hfield : nameField frame = (frame.drop 100).take 32 := by rw [nameField, if_pos hcode]
    refine ⟨_, _, c.cacheContact env frame hlen, ⟨_, d, hcode, hdecode, hname⟩,
      ⟨_, hcode, congrArg Except.ok (dif_pos hlen)⟩, rfl, ?_, ?_⟩
    · rw [rowCall, if_pos hcode]
      intro hok
      have hput :
          c.cacheContact env frame hlen = { c with db := c.db.upsertContact env.unix (contactOf frame hlen) } :=
        if_pos hok
      rw [hput]
      exact Or.inl ⟨hcode, _, AList.lookup_insert _, by rw [hfield]; rfl⟩
    · have hsplit : frame.drop 100 = (frame.drop 100).take 32 ++ frame.drop 132 := by
        rw [← List.drop_drop (i := 32) (j := 100), List.take_append_drop]
      have hiff := lossy_nameField_iff (x := (frame.drop 100).take 32) (y := frame.drop 132) (by
        rw [List.length_take, List.length_drop]
        omega)
      rw [← hsplit, List.head?_drop] at hiff
      rw [hfield, hiff]
      exact (or_iff_right (by rw [hcode]; decide)).symm
  · obtain ⟨d, hdecode, hname⟩ := decode_channelInfo hlen
    have hfield : nameField frame = (frame.drop 2).take 32 := by rw [nameField, if_neg (by rw [hcode]; decide)]
    refine ⟨_, _, c.cacheChannel env frame hlen, ⟨_, d, hcode, hdecode, hname⟩,
      ⟨_, hcode, congrArg Except.ok (dif_pos hlen)⟩, rfl, ?_, ?_⟩
    · rw [rowCall, if_neg (by rw [hcode]; decide)]
      intro hok
      rw [cacheChannel, if_pos hok]
      exact Or.inr ⟨hcode, _, _, List.getElem?_eq_getElem (by omega), AList.lookup_insert _, by rw [hfield]; rfl⟩
    · refine iff_of_true ?_ (Or.inl hcode)
      rw [hfield, take_nul]
      split
      · rfl
      · next hno => rw [untilNul_of_notMem hno, List.take_take, Nat.min_self]

/-- The name fills its field, and a NUL follows. -/
theorem names_agree_full : ∃ name stored c₁, NameDecoded (0x03 :: List.replicate 131 0x61 ++ List.replicate 16 0) name ∧
    blank.Caches sound (0x03 :: List.replicate 131 0x61 ++ List.replicate 16 0) c₁ ∧
    NameStored c₁ (0x03 :: List.replicate 131 0x61 ++ List.replicate 16 0) stored ∧ name = stored := by
  obtain ⟨name, stored, c₁, hname, hcaches, -, hstored, hiff⟩ := names_agree_iff blank sound
    (show IsNamed (0x03 :: List.replicate 131 0x61 ++ List.replicate 16 0) from Or.inl ⟨rfl, by simp⟩)
  exact ⟨name, stored, c₁, hname, hcaches, hstored rfl, hiff.mpr (Or.inr (Or.inr (Or.inr (Or.inl rfl))))⟩

/-- The name fills its field, and the advert time after it is no NUL. -/
theorem names_apart : ∃ name stored c₁, IsNamed (0x03 :: List.replicate 132 0x61 ++ List.replicate 15 0) ∧
    NameDecoded (0x03 :: List.replicate 132 0x61 ++ List.replicate 15 0) name ∧
    blank.Caches sound (0x03 :: List.replicate 132 0x61 ++ List.replicate 15 0) c₁ ∧
    NameStored c₁ (0x03 :: List.replicate 132 0x61 ++ List.replicate 15 0) stored ∧ name ≠ stored := by
  have hlen : 148 ≤ (0x03 :: List.replicate 132 0x61 ++ List.replicate 15 0 : Bytes).length := by simp
  obtain ⟨d, hdecode, hname⟩ := decode_contact hlen
  refine ⟨_, List.replicate 32 0x61, _, Or.inl ⟨rfl, hlen⟩, ⟨_, d, rfl, hdecode, hname⟩,
    ⟨_, rfl, congrArg Except.ok (dif_pos hlen)⟩, Or.inl ⟨rfl, _, AList.lookup_insert _, ?_⟩, ?_⟩
  · show Utf8.lossy (untilNul (((0x03 :: List.replicate 132 0x61 ++ List.replicate 15 0 : Bytes).drop 100).take 32)) = _
    decide +kernel
  · decide +kernel

end

/-! ### Echoes -/

/-- What the mesh receives of a message that a client sends, as the radio would report it without SNR. -/
def heard (pk : PublicKey) (name : Bytes) (p : Command) : Bytes :=
  if p.code = 0x02 then
    0x07 :: (pk.1.take 6 ++ 0 :: ((p.bytes.drop 1).take 1 ++ (p.bytes.drop 3).take 4 ++ p.bytes.drop 13))
  else
    0x08 ::
      ((p.bytes.drop 2).take 1 ++ 0 :: 0 :: ((p.bytes.drop 3).take 4 ++ (name ++ text ": " ++ p.bytes.drop 7).take 160))

/-- A turn builds this frame as the echo of a request, sends it to the others that are connected at one moment, and
    stores it if the database takes it. -/
structure Lap.Carries (s : Lap) (r : Queued) (sender : ClientId) (frame : Bytes) : Prop where
  built : ∃ f echo, f.request = r ∧ s.before.EchoOf f echo ∧ echo.frame = frame
  others : ∃ t, (s.before.begin s.frontend).clients.Onward t ∧ ∀ cid, echoesTo r.ticket cid s.after.out =
    if cid ∈ t.channels ∧ cid ≠ sender then [messageFrameFor (s.before.protocolVersion cid) frame] else []
  stored : s.event.Inserts → ∃ row, storedRows s.after.out = [row] ∧ row.frame = some frame

section
variable {c c₀ : Core} {f : InFlight} {echo : NewMessage} {pk : PublicKey} {name : Bytes} {config : Config}
  {db : NodeState} {env : Env} {first : Attempt} {attempts : List Attempt} {l : List Lap} {s : Lap} {r : Queued}
  {sender : ClientId} {how : Ending}

theorem channelTextOnAir_some {txt : Bytes} (hname : name.length ≤ 31) :
    channelTextOnAir (some name) txt = (name ++ text ": " ++ txt).take 160 := by
  have hlen : (name ++ text ": ").length = name.length + 2 := by
    rw [List.length_append]
    rfl
  show name ++ text ": " ++ txt.take (min txt.length (160 - (name ++ text ": ").length)) = _
  rw [List.take_append, List.take_of_length_le (by omega : (name ++ text ": ").length ≤ 160), List.take_eq_take_iff.mpr]
  omega

theorem EchoOf.heard_iff (h : c.EchoOf f echo) (hkey : c.radioPubkey = some pk) (hname : c.radioName = some name)
    (hshort : name.length ≤ 31) :
    echo.frame = heard pk name f.payload ↔ f.payload.code = 0x03 ∨ Utf8.WellFormed (f.payload.bytes.drop 13) := by
  have hone {p : Bytes} {i : Nat} (hi : i < p.length) : (p.drop i).take 1 = [p[i]] := by
    rw [List.drop_eq_getElem_cons hi, List.take_succ_cons, List.take_zero]
  have hrest {p : Bytes} {i : Nat} (hi : i ≤ p.length) : slice p i p.length ⟨hi, Nat.le_refl _⟩ = p.drop i := by
    rw [slice, ← List.length_drop, List.take_length]
  cases h with
  | @contact pk' hpk hcode hlen =>
    obtain rfl := Option.some.inj (hpk.symm.trans hkey)
    have hcode : f.payload.code = 0x02 := hcode
    rw [heard, if_pos hcode, hcode, or_iff_right (by decide), hone (by omega), ← Utf8.lossy_eq_self_iff]
    show (0x07 : UInt8) :: (pk'.1.take 6 ++ (0 : UInt8) :: f.payload.bytes[1] ::
      ((f.payload.bytes.drop 3).take 4 ++ Utf8.lossy (slice f.payload.bytes 13 _ _))) = _ ↔ _
    rw [hrest (by omega)]
    simp
  | @channel pk' hpk hcode hlen =>
    have hcode : f.payload.code = 0x03 := hcode
    rw [heard, if_neg (by rw [hcode]; decide), hone (by omega), hname]
    refine iff_of_true ?_ (Or.inl hcode)
    show (0x08 : UInt8) :: f.payload.bytes[2] :: 0 :: 0 :: ((f.payload.bytes.drop 3).take 4 ++
      channelTextOnAir (some name) (slice f.payload.bytes 7 _ _)) = _
    rw [hrest (by omega), channelTextOnAir_some hshort]
    rfl

/-- The turn in which the radio accepts a message echoes what the mesh receives of it if and only if it is one to a
    channel, or its text is well-formed. -/
theorem echo_heard_iff (hstart : (Core.new config db).start env first attempts = .ok c₀)
    (htrace : Trace c₀ l c) (hs : s ∈ l) (hclient : r.clientId = some sender) (hsend : r.payload.IsSend)
    (hended : .ended r how ∈ s.after.out) (haccept : how.IsAcceptance) (hkey : s.before.radioPubkey = some pk)
    (hname : s.before.radioName = some name) (hshort : name.length ≤ 31) :
    s.Carries r sender (heard pk name r.payload) ↔
    r.payload.code = 0x03 ∨ Utf8.WellFormed (r.payload.bytes.drop 13) := by
  obtain ⟨l₁, l₂, rfl⟩ := List.append_of_mem hs
  obtain ⟨hbefore, hstep, -⟩ := htrace.split
  obtain ⟨d, hd, hradio, f, echo, row, t, hf, hecho, hframe, -, honward, hrows, hechoes⟩ :=
    lap_sends hstart hbefore hstep hclient hsend (by rw [hkey]; exact Option.some_ne_none _) hended haccept
  constructor
  · rintro ⟨⟨f', echo', rfl, hecho', heq⟩, -, -⟩
    exact (hecho'.heard_iff hkey hname hshort).mp heq
  · intro h
    subst hf
    have hheard : echo.frame = heard pk name f.request.payload := (hecho.heard_iff hkey hname hshort).mpr h
    rw [← hheard]
    exact ⟨⟨f, echo, rfl, hecho, rfl⟩, ⟨t, honward, hechoes⟩, fun hinserts => ⟨row, hrows hinserts, hframe⟩⟩

/-- A text to a channel that is not well-formed is echoed as it is. -/
theorem echo_heard_channel : ∃ c₀ l c s r,
    (Core.new ⟨.off, true, false, ⟨0, 0, 0, 0⟩, .off⟩ .empty).start sound
      ⟨true, [.frame (0x05 :: List.replicate 57 0 ++ [0x4E]), .frame [0x0D, 3, 0, 1]], sound, sound, sound⟩ [] =
      .ok c₀ ∧
    Trace c₀ l c ∧ s ∈ l ∧ r.payload.bytes = [0x03, 0, 2, 0, 0, 0, 0, 0xFF] ∧
    s.Carries r 1 (heard ⟨List.replicate 32 0, rfl⟩ [0x4E] r.payload) := by
  let send : ClientCommand := ⟨1, 5000, [0x03, 0, 2, 0, 0, 0, 0, 0xFF]⟩
  let r : Queued := ⟨some 1, ⟨send.payload, List.cons_ne_nil _ _⟩, 2⟩
  obtain ⟨c₀, c₁, c₂, c₃, c₄, hboot, h₁, h₂, h₃, h₄, hended, hkey, hname⟩ : ∃ c₀ c₁ c₂ c₃ c₄,
      (Core.new ⟨.off, true, false, ⟨0, 0, 0, 0⟩, .off⟩ .empty).start sound
        ⟨true, [.frame (0x05 :: List.replicate 57 0 ++ [0x4E]), .frame [0x0D, 3, 0, 1]], sound, sound, sound⟩ [] =
        .ok c₀ ∧
      c₀.step [] (.radio sound [0x01, 0x01]) = .ok c₁ ∧ c₁.step [] (.radio sound [0x01, 0x01]) = .ok c₂ ∧
      c₂.step [[.connect, .connect]] (.command sound send) = .ok c₃ ∧ c₃.step [] (.radio sound [0x00]) = .ok c₄ ∧
      .ended r (.replied 0x00) ∈ c₄.out ∧ c₃.radioPubkey = some ⟨List.replicate 32 0, rfl⟩ ∧
      c₃.radioName = some [0x4E] := by
    refine ⟨_, _, _, _, _, rfl, rfl, rfl, rfl, rfl, ?_, rfl, rfl⟩
    decide
  have htrace : Trace c₀ _ c₄ := .cons h₁ (.cons h₂ (.cons h₃ (.cons h₄ (.nil c₄))))
  have haccept : (Ending.replied 0x00).IsAcceptance := show (0x00 : UInt8) ≠ 0x01 by decide
  refine ⟨c₀, _, c₄, ⟨c₃, [], .radio sound [0x00], c₄⟩, r, hboot, htrace, by simp, rfl, ?_⟩
  exact (echo_heard_iff hboot htrace (by simp) rfl (Or.inr ⟨rfl, by decide⟩) hended haccept hkey hname
    (by decide)).mpr (Or.inl rfl)

/-- Of a text to a contact that is not well-formed the others get another text. -/
theorem echo_misheard : ∃ c₀ l c s r,
    (Core.new ⟨.off, true, false, ⟨0, 0, 0, 0⟩, .off⟩ .empty).start sound
      ⟨true, [.frame (0x05 :: List.replicate 57 0 ++ [0x4E]), .frame [0x0D, 3, 0, 1]], sound, sound, sound⟩ [] =
      .ok c₀ ∧
    Trace c₀ l c ∧ s ∈ l ∧ r.clientId = some 1 ∧ r.payload.IsSend ∧
    r.payload.bytes = [0x02, 0, 0, 0, 0, 0, 0, 1, 2, 3, 4, 5, 6, 0xFF] ∧
    .ended r (.replied 0x06) ∈ s.after.out ∧ s.before.radioPubkey = some ⟨List.replicate 32 0, rfl⟩ ∧
    s.before.radioName = some [0x4E] ∧
    ¬s.Carries r 1 (heard ⟨List.replicate 32 0, rfl⟩ [0x4E] r.payload) := by
  let send : ClientCommand := ⟨1, 5000, [0x02, 0, 0, 0, 0, 0, 0, 1, 2, 3, 4, 5, 6, 0xFF]⟩
  let r : Queued := ⟨some 1, ⟨send.payload, List.cons_ne_nil _ _⟩, 2⟩
  obtain ⟨c₀, c₁, c₂, c₃, c₄, hboot, h₁, h₂, h₃, h₄, hended, hkey, hname⟩ : ∃ c₀ c₁ c₂ c₃ c₄,
      (Core.new ⟨.off, true, false, ⟨0, 0, 0, 0⟩, .off⟩ .empty).start sound
        ⟨true, [.frame (0x05 :: List.replicate 57 0 ++ [0x4E]), .frame [0x0D, 3, 0, 1]], sound, sound, sound⟩ [] =
        .ok c₀ ∧
      c₀.step [] (.radio sound [0x01, 0x01]) = .ok c₁ ∧ c₁.step [] (.radio sound [0x01, 0x01]) = .ok c₂ ∧
      c₂.step [[.connect, .connect]] (.command sound send) = .ok c₃ ∧ c₃.step [] (.radio sound [0x06, 0]) = .ok c₄ ∧
      .ended r (.replied 0x06) ∈ c₄.out ∧ c₃.radioPubkey = some ⟨List.replicate 32 0, rfl⟩ ∧
      c₃.radioName = some [0x4E] := by
    refine ⟨_, _, _, _, _, rfl, rfl, rfl, rfl, rfl, ?_, rfl, rfl⟩
    decide
  have htrace : Trace c₀ _ c₄ := .cons h₁ (.cons h₂ (.cons h₃ (.cons h₄ (.nil c₄))))
  refine ⟨c₀, _, c₄, ⟨c₃, [], .radio sound [0x06, 0], c₄⟩, r, hboot, htrace, by simp, rfl, Or.inl ⟨rfl, by decide⟩,
    rfl, hended, hkey, hname, ?_⟩
  rintro ⟨⟨f, echo, hf, hecho, heq⟩, -, -⟩
  have hpayload : f.payload = r.payload := congrArg Queued.payload hf
  have hiff := hecho.heard_iff hkey hname (by decide)
  rw [hpayload] at hiff
  rcases hiff.mp heq with hcode | htext
  · exact absurd hcode (by decide)
  · exact absurd (Utf8.lossy_eq_self_iff.mpr htext) (by decide)

end

end Core
end CoreSplitter
