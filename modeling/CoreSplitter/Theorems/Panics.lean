import CoreSplitter.Core.Handlers
import CoreSplitter.Protocol.Frame

/-! Which payloads end the process. The slices outside `protocol/decode.rs` carry their bounds in their types;
    those of the decoders stand behind hand-written guards, three of which are too weak for the responses
    and one for the commands. The decoders run only while the event log is on. -/

namespace CoreSplitter
open Bytes

/-- The computation ends without a panic. -/
def Completes {α : Type} (r : Except Panic α) : Prop := ∃ a, r = .ok a

section
variable {α β : Type}

@[simp] theorem completes_ok {a : α} : Completes (.ok a : Except Panic α) := ⟨a, rfl⟩

@[simp] theorem completes_error {e : Panic} : ¬Completes (.error e : Except Panic α) := by
  rintro ⟨a, h⟩
  cases h

@[simp] theorem completes_map {x : Except Panic α} {f : α → β} : Completes (f <$> x) ↔ Completes x := by
  cases x <;> simp

@[simp] theorem completes_bind_ok {x : Except Panic α} {f : α → β} :
    Completes (x >>= fun a => Except.ok (f a)) ↔ Completes x := by
  cases x <;> simp

theorem completes_bind {x : Except Panic α} {f : α → Except Panic β} (hx : Completes x) (hf : ∀ a, Completes (f a)) :
    Completes (x >>= f) := by
  obtain ⟨a, rfl⟩ := hx
  exact hf a

@[simp] theorem completes_guarded {c : Prop} [Decidable c] {x : Except Panic Decoded} :
    Completes (guarded c x) ↔ (c → Completes x) := by
  unfold guarded
  split <;> simp [*]

end

/-! ### Commands -/

/-- GET_CONTACTS with a filter that is cut: the guard of its arm asks for one byte, the slice for four. -/
def CutFilter (p : Bytes) : Prop := p.head? = some 0x04 ∧ 2 ≤ p.length ∧ p.length ≤ 4

theorem decodeCommandFields_completes {code : UInt8} {p : Bytes} (hlen : 1 ≤ p.length)
    (h : code = 0x04 → ¬(2 ≤ p.length ∧ p.length ≤ 4)) : Completes (decodeCommandFields code p) := by
  unfold decodeCommandFields
  split
  case h_2 =>
    rw [completes_guarded]
    intro hg
    by_cases h7 : p.length > 7 <;> simp (disch := omega) [h7]
  case h_4 =>
    rw [completes_guarded]
    intro hg
    have := h rfl
    simp (disch := omega)
  case h_15 =>
    by_cases h4 : p.length > 4 <;> simp (disch := omega) [h4]
  all_goals simp +contextual (disch := omega) [tryFrom_ok, tryIndex_ok]

theorem decodeCommandFields_panics {p : Bytes} (h : 2 ≤ p.length ∧ p.length ≤ 4) :
    ¬Completes (decodeCommandFields 0x04 p) := by
  have hg : p.length > 1 := by omega
  simp [decodeCommandFields, guarded, hg, u32At_error (p := p) (i := 1) (by omega)]

/-! ### Responses -/

/-- The frames whose decoding slices past their end: a MSG_SENT without its last timeout byte, a
    CONTACT_MSG_RECV_V3 that ends in its timestamp, a CHANNEL_INFO that ends in its name. -/
def CutFrame (p : Bytes) : Prop :=
  (p.head? = some 0x06 ∧ p.length = 9) ∨ (p.head? = some 0x10 ∧ 13 ≤ p.length ∧ p.length ≤ 15) ∨
    (p.head? = some 0x12 ∧ 3 ≤ p.length ∧ p.length ≤ 33)

theorem decodeSelfInfoTail_completes {p : Bytes} : Completes (decodeSelfInfoTail p) := by
  unfold decodeSelfInfoTail guarded
  by_cases h57 : p.length > 57
  · by_cases h58 : p.length > 58 <;> simp (disch := omega) [h57, h58, tryFrom_ok]
  · by_cases h56 : p.length > 56 <;> simp (disch := omega) [h57, h56, tryFrom_ok]

/-- The position of a terminator, or the length of the field without one, stays inside the field. -/
theorem findIdx?_getD_le {l : Bytes} {q : UInt8 → Bool} {n : Nat} (hn : n ≤ l.length) :
    (l.findIdx? q).getD n ≤ l.length := by
  cases h : l.findIdx? q with
  | none => exact hn
  | some i => exact Nat.le_of_lt (List.findIdx?_eq_some_iff_findIdx_eq.mp h).1

theorem decodeResponseFields_completes {code : UInt8} {p : Bytes} (h06 : code = 0x06 → p.length ≠ 9)
    (h10 : code = 0x10 → ¬(13 ≤ p.length ∧ p.length ≤ 15)) (h12 : code = 0x12 → ¬(3 ≤ p.length ∧ p.length ≤ 33)) :
    Completes (decodeResponseFields code p) := by
  unfold decodeResponseFields
  split
  case h_1 | h_2 => exact completes_bind (by simp +contextual (disch := omega)) fun _ => by simp
  case h_4 =>
    rw [completes_guarded]
    intro hg
    have hname := findIdx?_getD_le (l := slice p 100 p.length ⟨by omega, Nat.le_refl _⟩) (q := (· == 0)) (n := 32)
      (by rw [slice_length]; omega)
    simp (disch := omega) [tryFrom_ok, tryIndex_ok, tryRange_ok (Nat.zero_le _) hname]
  case h_6 =>
    rw [completes_guarded]
    intro hg
    obtain ⟨tail, htail⟩ := decodeSelfInfoTail_completes (p := p)
    by_cases h56 : p.length ≥ 56 <;> simp (disch := omega) [h56, tryIndex_ok, htail]
  case h_7 =>
    rw [completes_guarded]
    intro hg
    have := h06 rfl
    simp (disch := omega)
  case h_12 =>
    rw [completes_guarded]
    intro hg
    simp only [u16At_ok (show 1 + 2 ≤ p.length by omega), Except.bind_ok_eq]
    exact completes_bind (by simp +contextual (disch := omega)) fun _ => by simp
  case h_13 =>
    rw [completes_guarded]
    intro hg
    simp only [byteAt_ok (show 1 < p.length by omega), Except.bind_ok_eq]
    repeat' refine completes_bind ?_ fun _ => ?_
    all_goals simp +contextual (disch := omega) [tryIndex_ok]
  case h_14 =>
    rw [completes_guarded]
    intro hg
    have := h10 rfl
    simp (disch := omega) [tryIndex_ok]
  case h_16 =>
    rw [completes_guarded]
    intro hg
    have := h12 rfl
    have hlen : (slice p 2 34 ⟨by omega, by omega⟩).length = 32 := slice_length _
    have hname := findIdx?_getD_le (l := slice p 2 34 ⟨by omega, by omega⟩) (q := (· == 0)) (n := 32) (by omega)
    simp (disch := omega) [tryRange_ok]
  case h_17 =>
    by_cases h5 : p.length ≥ 5 <;> simp (disch := omega) [h5]
  all_goals simp +contextual (disch := omega) [tryIndex_ok]

theorem decodeResponseFields_panics {code : UInt8} {p : Bytes} (hcode : p.head? = some code) (h : CutFrame p) :
    ¬Completes (decodeResponseFields code p) := by
  have hcut : (code = 0x06 ∧ p.length = 9) ∨ (code = 0x10 ∧ 13 ≤ p.length ∧ p.length ≤ 15) ∨
      (code = 0x12 ∧ 3 ≤ p.length ∧ p.length ≤ 33) := by
    simpa [CutFrame, hcode] using h
  rcases hcut with ⟨rfl, h⟩ | ⟨rfl, h⟩ | ⟨rfl, h⟩
  · have hg : p.length ≥ 9 := by omega
    simp (disch := omega) [decodeResponseFields, guarded, hg, u32At_error (p := p) (i := 6) (by omega)]
  · have hg : p.length ≥ 13 := by omega
    simp (disch := omega) [decodeResponseFields, guarded, hg, tryIndex_ok, u32At_error (p := p) (i := 12) (by omega)]
  · have hg : p.length > 2 := by omega
    have hname : p.tryRange 2 34 = .error (.range 2 34 p.length) := tryRange_error (by omega)
    simp (disch := omega) [decodeResponseFields, guarded, hg, hname]

/-! ### Payloads -/

theorem decodeCommandPayload_completes_iff {code : UInt8} {p : Bytes} (hcode : p.head? = some code) :
    Completes (decodeCommandPayload code p) ↔ ¬CutFilter p := by
  have hne : p ≠ [] := by rintro rfl; cases hcode
  have hlen : 1 ≤ p.length := List.length_pos_iff.mpr hne
  have hpay : Completes (decodeCommandPayload code p) ↔ Completes (decodeCommandFields code p) := by
    simp [decodeCommandPayload, hne]
  rw [hpay]
  constructor
  · rintro h ⟨h04, hcut⟩
    obtain rfl : code = 0x04 := Option.some.inj (hcode.symm.trans h04)
    exact decodeCommandFields_panics hcut h
  · intro h
    exact decodeCommandFields_completes hlen fun h04 hcut => h ⟨h04 ▸ hcode, hcut⟩

theorem decodeResponsePayload_completes_iff {code : UInt8} {p : Bytes} (hcode : p.head? = some code) :
    Completes (decodeResponsePayload code p) ↔ ¬CutFrame p := by
  have hne : p ≠ [] := by rintro rfl; cases hcode
  have hpay : Completes (decodeResponsePayload code p) ↔ Completes (decodeResponseFields code p) := by
    simp [decodeResponsePayload, hne]
  rw [hpay]
  constructor
  · exact fun h hcut => decodeResponseFields_panics hcode hcut h
  · intro h
    refine decodeResponseFields_completes (fun hc hl => h ?_) (fun hc hl => h ?_) fun hc hl => h ?_
    · exact Or.inl ⟨hc ▸ hcode, hl⟩
    · exact Or.inr (Or.inl ⟨hc ▸ hcode, hl⟩)
    · exact Or.inr (Or.inr ⟨hc ▸ hcode, hl⟩)

theorem logEvent_toRadio_completes_iff {config : Config} {code : UInt8} {p : Bytes} (hcode : p.head? = some code) :
    Completes (logEvent config .toRadio code p) ↔ ¬(config.eventLogLevel ≠ .off ∧ CutFilter p) := by
  by_cases hoff : config.eventLogLevel = .off
  · simp [logEvent, hoff]
  · simp [logEvent, hoff, decodeCommandPayload_completes_iff hcode]

theorem logEvent_fromRadio_completes_iff {config : Config} {code : UInt8} {p : Bytes} (hcode : p.head? = some code) :
    Completes (logEvent config .fromRadio code p) ↔ ¬(config.eventLogLevel ≠ .off ∧ CutFrame p) := by
  by_cases hoff : config.eventLogLevel = .off
  · simp [logEvent, hoff]
  · simp [logEvent, hoff, decodeResponsePayload_completes_iff hcode]

/-! ### The cache -/

namespace Core
variable {c : Core} {env : Env}

theorem extractRadioIdentity_completes {blob : Bytes} (h : blob.head? = some 0x05) :
    Completes (c.extractRadioIdentity blob) := by
  obtain ⟨d, hd⟩ := (decodeResponsePayload_completes_iff h).mpr (by simp [CutFrame, h])
  simp only [extractRadioIdentity, hd, Except.bind_ok_eq]
  split <;> simp

theorem extractMaxChannels_completes {blob : Bytes} (h : blob.head? = some 0x0D) :
    Completes (c.extractMaxChannels blob) := by
  obtain ⟨d, hd⟩ := (decodeResponsePayload_completes_iff h).mpr (by simp [CutFrame, h])
  simp only [extractMaxChannels, hd, Except.bind_ok_eq]
  split <;> simp

/-- The decoder runs here on codes whose guards hold, whatever the log level. -/
theorem cacheResponse_completes {code : UInt8} {payload : Bytes} (h : payload.head? = some code) :
    Completes (c.cacheResponse env code payload) := by
  unfold cacheResponse
  split
  case h_2 => exact completes_bind (extractRadioIdentity_completes h) fun _ => completes_ok
  case h_4 => exact completes_bind (extractMaxChannels_completes h) fun _ => completes_ok
  case h_5 | h_6 =>
    refine completes_bind ((decodeResponsePayload_completes_iff h).mpr (by simp [CutFrame, h])) fun d => ?_
    split <;> exact completes_ok
  all_goals exact completes_ok

/-! ### The handlers -/

/-- A client command ends the process exactly when the event log is on and it is a GET_CONTACTS whose filter
    is cut. -/
theorem handleClientCommand_completes_iff {cmd : ClientCommand} :
    Completes (c.handleClientCommand env cmd) ↔
      (c.clientIsAlive cmd.clientId).1 = true → ¬(c.config.eventLogLevel ≠ .off ∧ CutFilter cmd.payload) := by
  unfold handleClientCommand
  split
  · rename_i h
    simp [h, CutFilter]
  · rename_i h
    have hcode : cmd.payload.head? = some (Command.code ⟨cmd.payload, h⟩) := List.head?_eq_some_head h
    have hconfig : (c.clientIsAlive cmd.clientId).2.config = c.config := rfl
    rw [← logEvent_toRadio_completes_iff hcode]
    cases halive : (c.clientIsAlive cmd.clientId).1 with
    | false => simp [halive]
    | true => simp [halive, hconfig]

/-- A GET_CONTACTS with one byte of its filter, while the event log is on. -/
theorem handleClientCommand_cut_filter_panics : ∃ out c env cmd, Reachable out c ∧
    (c.clientIsAlive cmd.clientId).1 = true ∧ ¬Completes (c.handleClientCommand env cmd) := by
  refine ⟨_, _, sound, ⟨1, 5000, [0x04, 0x00]⟩,
    ReachableWith.of_turns (l := [([[.connect]], .idle)]) (show booted .summary = .ok _ from rfl) rfl trivial
      fun _ _ _ => trivial, rfl, ?_⟩
  exact completes_error (e := .range 1 5 2)

/-- A radio frame ends the process exactly when the event log is on and it is a cut MSG_SENT,
    CONTACT_MSG_RECV_V3 or CHANNEL_INFO. -/
theorem handleRadioRx_completes_iff {payload : Bytes} :
    Completes (c.handleRadioRx env payload) ↔ ¬(c.config.eventLogLevel ≠ .off ∧ CutFrame payload) := by
  unfold handleRadioRx
  split
  · simp [CutFrame]
  · rename_i code rest
    rw [← logEvent_fromRadio_completes_iff (show (code :: rest).head? = some code from rfl)]
    constructor
    · rintro ⟨c', h⟩
      cases hlog : logEvent c.config .fromRadio code (code :: rest) with
      | error e => simp [hlog] at h
      | ok u => exact completes_ok
    · intro h
      exact completes_bind h fun _ => completes_bind (cacheResponse_completes rfl) fun _ => completes_ok

/-- A MSG_SENT whose timeout lacks its last byte, while the event log is on. -/
theorem handleRadioRx_cut_msg_sent_panics : ∃ out c env payload, Reachable out c ∧
    ¬Completes (c.handleRadioRx env payload) := by
  refine ⟨_, _, sound, [0x06, 0, 1, 2, 3, 4, 5, 6, 7],
    ReachableWith.of_turns (l := []) (show booted .summary = .ok _ from rfl) rfl trivial (List.forall_mem_nil _), ?_⟩
  exact completes_error (e := .range 6 10 9)

/-! ### Initialising the radio -/

end Core
end CoreSplitter
