import CoreSplitter.Core.EventLog

/-! The event log: what a line tells of the event, whatever the payload contains. -/

namespace CoreSplitter
open Bytes

/-! ### Names of codes -/

section
variable {names : List (UInt8 × String)} {unknown : String} {code code' : UInt8} {direction direction' : Direction}

/-- What a table of names has to satisfy: no two codes have the same name, no name looks like an unknown code, and
    each is a word. -/
structure Telling (names : List (UInt8 × String)) (unknown : String) : Prop where
  nodup : (names.map fun n => leNat (text n.2)).Nodup
  known : ∀ n ∈ names, ¬text unknown <+: text n.2 ∧ ∀ b ∈ text n.2, InWord b
  word : ∀ b ∈ text unknown, InWord b

theorem telling_iff : Telling names unknown ↔ (names.map fun n => leNat (text n.2)).Nodup ∧
    names.all (fun n => !(text unknown).isPrefixOf (text n.2) && (text n.2).all (InWord ·)) = true ∧
    (text unknown).all (InWord ·) = true := by
  simp only [List.all_eq_true, Bool.and_eq_true, Bool.not_eq_true', Bool.eq_false_iff, ne_eq,
    List.isPrefixOf_iff_prefix, decide_eq_true_eq]
  exact ⟨fun h => ⟨h.nodup, h.known, h.word⟩, fun h => ⟨h.1, h.2.1, h.2.2⟩⟩

theorem commandNames_telling : Telling commandNames "CMD_UNKNOWN" := by
  simp only [telling_iff, text_eq]
  decide +kernel

theorem responseNames_telling : Telling responseNames "RESP_UNKNOWN" := by
  simp only [telling_iff, text_eq]
  decide +kernel

theorem mem_of_lookup {name : String} (h : names.lookup code = some name) : (code, name) ∈ names := by
  obtain ⟨l₁, l₂, rfl, -⟩ := List.lookup_eq_some_iff.mp h
  simp

theorem displayed_known {name : String} (h : names.lookup code = some name) :
    displayed names unknown code = text name := by
  rw [displayed, h]

theorem displayed_unknown (h : names.lookup code = none) :
    displayed names unknown code = text unknown ++ text "(0x" ++ hexEncode [code] ++ text ")" := by
  rw [displayed, h]

theorem Telling.code_eq (ht : Telling names unknown)
    (h : displayed names unknown code = displayed names unknown code') : code = code' := by
  have hclash {a b : UInt8} {name : String} (ha : names.lookup a = some name) (hb : names.lookup b = none)
      (h : displayed names unknown a = displayed names unknown b) : False := by
    refine (ht.known _ (mem_of_lookup ha)).1 ?_
    rw [← displayed_known ha, h, displayed_unknown hb, List.append_assoc, List.append_assoc]
    exact List.prefix_append _ _
  cases hcode : names.lookup code with
  | some name =>
    cases hcode' : names.lookup code' with
    | some name' =>
      have hmem := mem_of_lookup hcode
      have hmem' := mem_of_lookup hcode'
      rw [displayed_known hcode, displayed_known hcode'] at h
      exact (Prod.mk.inj (List.inj_on_of_nodup_map ht.nodup hmem hmem' (congrArg leNat h))).1
    | none => exact (hclash hcode hcode' h).elim
  | none =>
    cases hcode' : names.lookup code' with
    | some name' => exact (hclash hcode' hcode h.symm).elim
    | none =>
      rw [displayed_unknown hcode, displayed_unknown hcode'] at h
      have hhex := hexEncode_injective (List.append_cancel_left (List.append_cancel_right h))
      exact List.singleton_inj.mp hhex

theorem Telling.displayed_word (ht : Telling names unknown) : ∀ b ∈ displayed names unknown code, InWord b := by
  intro b hb
  cases hcode : names.lookup code with
  | some name =>
    rw [displayed_known hcode] at hb
    exact (ht.known _ (mem_of_lookup hcode)).2 b hb
  | none =>
    have hopen : ∀ b ∈ text "(0x", InWord b := by
      rw [show text "(0x" = [0x28, 0x30, 0x78] from rfl]
      simp [InWord, printable]
    have hclose : ∀ b ∈ text ")", InWord b := by
      rw [show text ")" = [0x29] from rfl]
      simp [InWord, printable]
    rw [displayed_unknown hcode] at hb
    rcases List.mem_append.mp hb with hb | hb
    · rcases List.mem_append.mp hb with hb | hb
      · rcases List.mem_append.mp hb with hb | hb
        · exact ht.word b hb
        · exact hopen b hb
      · exact hexEncode_word b hb
    · exact hclose b hb

namespace Direction

theorem typeName_word : ∀ b ∈ direction.typeName code, InWord b := by
  cases direction with
  | toRadio => exact commandNames_telling.displayed_word
  | fromRadio => exact responseNames_telling.displayed_word

theorem typeName_inj (h : direction.typeName code = direction.typeName code') : code = code' := by
  cases direction with
  | toRadio => exact commandNames_telling.code_eq h
  | fromRadio => exact responseNames_telling.code_eq h

theorem arrow_length : direction.arrow.length = 2 := by cases direction <;> rfl

theorem arrow_inj (h : direction.arrow = direction'.arrow) : direction = direction' := by
  cases direction <;> cases direction' <;> first | rfl | exact absurd h (by decide)

end Direction
end

/-! ### Lines -/

section
variable {twoDecimals : Float → Bytes} {direction direction' : Direction} {code code' : UInt8}
  {decoded : Option Decoded} {payload payload' line : Bytes} {level : LogLevel} {config : Config} {r r' : Bytes}

theorem sanitize_append {a b : Bytes} : sanitize (a ++ b) = sanitize a ++ sanitize b := List.filter_append _ _

theorem sanitize_of_printable {a : Bytes} (h : ∀ b ∈ a, printable b = true) : sanitize a = a :=
  List.filter_eq_self.mpr h

/-- What ends the name of a code. -/
def EndsName (b : UInt8) : Prop := b = 0x20 ∨ b = 0x3A

/-- A line is an arrow, the name of the code, and what is told of the payload; the last word of a Verbose line is
    the payload. -/
theorem buildEventMsg_form : ∃ rest, Ends EndsName rest ∧
    buildEventMsg twoDecimals direction (direction.typeName code) decoded payload level =
      direction.arrow ++ 0x20 :: (direction.typeName code ++ rest) ∧
    (level = .verbose → ∃ front, rest = front ++ 0x20 :: hexEncode payload) := by
  let formatted := (decoded.map (formatDecoded twoDecimals)).getD []
  let details := if formatted.isEmpty then [] else text ": " ++ formatted
  let counted := text " [" ++ text (toString payload.length) ++ text " bytes]:"
  let tail := if level = .verbose then counted ++ 0x20 :: hexEncode payload else []
  have hmsg : buildEventMsg twoDecimals direction (direction.typeName code) decoded payload level =
      sanitize (direction.arrow ++ 0x20 :: (direction.typeName code ++ (details ++ tail))) := by
    have hspace : text " " = [0x20] := rfl
    have hbytes : text " bytes]: " = text " bytes]:" ++ [0x20] := rfl
    simp only [buildEventMsg, details, tail, counted, formatted, hspace, hbytes]
    by_cases hempty : ((decoded.map (formatDecoded twoDecimals)).getD []).isEmpty
    · by_cases hlevel : level = .verbose <;> simp [hempty, hlevel]
    · by_cases hlevel : level = .verbose <;> simp [hempty, hlevel]
  have harrow : sanitize direction.arrow = direction.arrow := by cases direction <;> rfl
  have hname : sanitize (direction.typeName code) = direction.typeName code :=
    sanitize_of_printable fun b hb => (Direction.typeName_word b hb).1
  have hhex : sanitize (hexEncode payload) = hexEncode payload := sanitize_of_printable fun b hb =>
    (hexEncode_word b hb).1
  have hspace (a : Bytes) : sanitize (0x20 :: a) = 0x20 :: sanitize a := rfl
  refine ⟨sanitize (details ++ tail), ?_, ?_, fun hlevel => ⟨sanitize (details ++ counted), ?_⟩⟩
  · intro b hb
    rw [sanitize_append] at hb
    by_cases hformatted : formatted.isEmpty
    · have hdetails : details = [] := if_pos hformatted
      rw [hdetails] at hb
      by_cases hlevel : level = .verbose
      · simp only [tail, if_pos hlevel] at hb
        exact Or.inl (Option.some.inj hb).symm
      · simp only [tail, if_neg hlevel] at hb
        cases hb
    · have hdetails : details = text ": " ++ formatted := if_neg hformatted
      rw [hdetails] at hb
      exact Or.inr (Option.some.inj hb).symm
  · rw [hmsg, sanitize_append, hspace, sanitize_append, harrow, hname]
  · simp only [tail, if_pos hlevel]
    rw [← List.append_assoc, sanitize_append, hspace, hhex]

/-- Whatever follows the name, a line tells its direction and its code. -/
theorem line_unique
    (heq : direction.arrow ++ 0x20 :: (direction.typeName code ++ r) = direction'.arrow ++ 0x20 ::
      (direction'.typeName code' ++ r'))
    (hr : Ends EndsName r) (hr' : Ends EndsName r') : direction = direction' ∧ code = code' ∧ r = r' := by
  have hlength : direction.arrow.length = direction'.arrow.length :=
    Direction.arrow_length.trans Direction.arrow_length.symm
  obtain ⟨harrow, hrest⟩ := List.append_inj heq hlength
  obtain rfl := Direction.arrow_inj harrow
  have hword (code : UInt8) : ∀ b ∈ direction.typeName code, ¬EndsName b := by
    intro b hb hends
    obtain ⟨-, hspace, hcolon⟩ := Direction.typeName_word b hb
    exact hends.elim hspace hcolon
  obtain ⟨hname, hr⟩ := word_unique (List.cons.inj hrest).2 (hword code) (hword code') hr hr'
  exact ⟨rfl, Direction.typeName_inj hname, hr⟩

theorem eventLine_form (h : eventLine twoDecimals config direction code payload = .ok (some line)) :
    (∀ b ∈ line, printable b = true) ∧
    ∃ rest, Ends EndsName rest ∧ line = direction.arrow ++ 0x20 :: (direction.typeName code ++ rest) ∧
      (config.eventLogLevel = .verbose → ∃ front, rest = front ++ 0x20 :: hexEncode payload) := by
  unfold eventLine at h
  split at h
  · cases h
  · obtain ⟨decoded, -, h⟩ := Except.of_bind_eq_ok h
    cases h
    exact ⟨fun b hb => (List.mem_filter.mp hb).2, buildEventMsg_form⟩

/-- The core goes on after an event exactly when there is a line to write, or the log is off. -/
theorem logEvent_eq :
    logEvent config direction code payload = (fun _ => ()) <$> eventLine twoDecimals config direction code payload := by
  unfold logEvent eventLine
  split
  · rfl
  · cases direction with
    | toRadio => cases hdecoded : decodeCommandPayload code payload <;> simp [Direction.decode, hdecoded]
    | fromRadio => cases hdecoded : decodeResponsePayload code payload <;> simp [Direction.decode, hdecoded]

/-- A line is one line of printable ASCII, whatever is in the payload; it tells the direction and the code of its
    event, and in the Verbose log the whole payload. -/
theorem event_line_read (h : eventLine twoDecimals config direction code payload = .ok (some line)) :
    (∀ b ∈ line, 0x20 ≤ b ∧ b ≤ 0x7E) ∧ ∀ direction' code' payload',
      eventLine twoDecimals config direction' code' payload' = .ok (some line) →
        direction' = direction ∧ code' = code ∧ (config.eventLogLevel = .verbose → payload' = payload) := by
  obtain ⟨hprintable, rest, hends, hline, hverbose⟩ := eventLine_form h
  constructor
  · intro b hb
    simpa [printable] using hprintable b hb
  · intro direction' code' payload' h'
    obtain ⟨-, rest', hends', hline', hverbose'⟩ := eventLine_form h'
    have heq := hline'.symm.trans hline
    obtain ⟨hdirection, hcode, hrest⟩ := line_unique heq hends' hends
    refine ⟨hdirection, hcode, fun hlevel => hexEncode_injective ?_⟩
    obtain ⟨front, hfront⟩ := hverbose hlevel
    obtain ⟨front', hfront'⟩ := hverbose' hlevel
    have hspaceless (p : Bytes) : ∀ b ∈ hexEncode p, ¬b = 0x20 := fun b hb => (hexEncode_word b hb).2.1
    rw [hfront, hfront'] at hrest
    exact last_word_unique (p := (· = 0x20)) hrest rfl rfl (hspaceless payload') (hspaceless payload)

theorem waiting_line_read :
    (∀ b ∈ text "<- MESSAGES_WAITING: messages_waiting=true [2 bytes]: 8300", 0x20 ≤ b ∧ b ≤ 0x7E) ∧
    ∀ direction code payload,
      eventLine (fun _ => []) ⟨.verbose, true, false, ⟨0, 0, 0, 0⟩, .off⟩ direction code payload =
      .ok (some (text "<- MESSAGES_WAITING: messages_waiting=true [2 bytes]: 8300")) →
        direction = .fromRadio ∧ code = 0x83 ∧ payload = [0x83, 0x00] := by
  have hline : eventLine (fun _ => []) ⟨.verbose, true, false, ⟨0, 0, 0, 0⟩, .off⟩ .fromRadio 0x83 [0x83, 0x00] =
      .ok (some (text "<- MESSAGES_WAITING: messages_waiting=true [2 bytes]: 8300")) := rfl
  obtain ⟨hprintable, hread⟩ := event_line_read hline
  refine ⟨hprintable, fun direction code payload h => ?_⟩
  obtain ⟨hdirection, hcode, hpayload⟩ := hread direction code payload h
  exact ⟨hdirection, hcode, hpayload rfl⟩

end

/-! ### Order of the fields -/

/-- What is computed without a panic has the property. -/
def Yields {α : Type} (P : α → Prop) (x : Except Panic α) : Prop := ∀ a, x = .ok a → P a

namespace Decoded

/-- The fields are some of these, in this order. -/
def Among (names : List String) (d : Decoded) : Prop := (d.map (·.1)).Sublist names

/-- No name is inserted twice. -/
def Distinct (d : Decoded) : Prop := (d.map (·.1)).Nodup

theorem Among.distinct {names : List String} {d : Decoded} (h : d.Among names) (hnodup : names.Nodup) : d.Distinct :=
  hnodup.sublist h

theorem Among.cons {names : List String} {d : Decoded} {name : String} {v : DecodedValue} (h : d.Among names) :
    Among (name :: names) ((name, v) :: d) := h.cons_cons name

theorem Among.append {names names' : List String} {d d' : Decoded} (h : d.Among names) (h' : d'.Among names') :
    Among (names ++ names') (d ++ d') := by
  rw [Among, List.map_append]
  exact List.Sublist.append h h'

end Decoded

section
variable {α β : Type} {P : β → Prop} {Q : α → Prop} {R : Decoded → Prop} {x : Except Panic α} {y : Except Panic Decoded}
  {f : α → Except Panic β} {b : β} {p : Bytes} {code : UInt8}

theorem yields_ok : Yields P (.ok b) ↔ P b :=
  ⟨fun h => h b rfl, fun h _ hb => Except.ok.inj hb ▸ h⟩

theorem Yields.bind (h : Yields Q x) (hf : ∀ a, Q a → Yields P (f a)) : Yields P (x >>= f) := by
  intro b hb
  obtain ⟨a, ha, hb⟩ := Except.of_bind_eq_ok hb
  exact hf a (h a ha) b hb

theorem yields_bind (hf : ∀ a, Yields P (f a)) : Yields P (x >>= f) :=
  Yields.bind (Q := fun _ => True) (fun _ _ => trivial) fun a _ => hf a

theorem yields_guarded {c : Prop} [Decidable c] (hnone : R []) (h : Yields R y) : Yields R (guarded c y) := by
  unfold guarded
  split
  · exact h
  · exact yields_ok.mpr hnone

open Decoded

theorem coordinate_among {name : String} {v : Float} : (coordinate name v).Among [name] := by
  unfold coordinate
  split
  · exact List.Sublist.refl [name]
  · exact List.nil_sublist [name]

theorem decodeCommandFields_distinct : Yields Distinct (decodeCommandFields code p) := by
  unfold decodeCommandFields
  split
  all_goals repeat' first
    | refine yields_guarded List.nodup_nil ?_ | refine yields_bind fun _ => ?_ | split | dsimp only
  all_goals exact yields_ok.mpr (by simp [Distinct])

theorem decodeSelfInfoTail_among : Yields (Among ["name", "sf", "cr"]) (decodeSelfInfoTail p) := by
  unfold decodeSelfInfoTail
  refine Yields.bind (Q := Among ["sf", "cr"]) ?_ fun sfCr hsfCr => ?_
  · exact yields_guarded (List.nil_sublist _)
      (yields_bind fun _ => yields_bind fun _ => yields_ok.mpr (List.Sublist.refl _))
  · repeat' first | refine yields_bind fun _ => ?_ | split | dsimp only
    all_goals exact yields_ok.mpr hsfCr.cons

theorem decodeResponseFields_distinct : Yields Distinct (decodeResponseFields code p) := by
  have hone {name : String} {c : Prop} [Decidable c] {x : Except Panic DecodedValue} :
      Yields (Among [name]) (guarded c (x >>= fun v => pure [(name, v)])) :=
    yields_guarded (List.nil_sublist [name]) (yields_bind fun _ => yields_ok.mpr (List.Sublist.refl [name]))
  have htwo {name name' : String} {c : Prop} [Decidable c] {α : Type} {x : Except Panic α}
      {x' : Except Panic DecodedValue} {v : α → DecodedValue} :
      Yields (Among [name, name']) (guarded c (x >>= fun a => x' >>= fun v' => pure [(name, v a), (name', v')])) :=
    yields_guarded (List.nil_sublist _) (yields_bind fun _ => yields_bind fun _ =>
      yields_ok.mpr (List.Sublist.refl [name, name']))
  unfold decodeResponseFields
  split
  -- OK, ERROR, CONTACT, SELF_INFO, BATTERY and DEVICE_INFO are put together from parts
  case h_1 => exact Yields.bind hone fun _ h => yields_ok.mpr (h.cons.distinct (by simp))
  case h_2 => exact Yields.bind hone fun _ h => yields_ok.mpr (h.cons.distinct (by simp))
  case h_4 =>
    refine yields_guarded List.nodup_nil ?_
    repeat refine yields_bind fun _ => ?_
    have hfixed {v₁ v₂ v₃ v₄ v₅ : DecodedValue} : Among ["name", "public_key", "type", "path_len", "last_advert"]
        [("name", v₁), ("public_key", v₂), ("type", v₃), ("path_len", v₄), ("last_advert", v₅)] := List.Sublist.refl _
    exact yields_ok.mpr (((hfixed.append coordinate_among).append coordinate_among).distinct (by simp))
  case h_6 =>
    refine yields_guarded List.nodup_nil ?_
    repeat refine yields_bind fun _ => ?_
    dsimp only
    have hfixed {v₁ v₂ v₃ v₄ v₅ v₆ v₇ v₈ v₉ v₁₀ : DecodedValue} :
        Among ["max_tx_power", "multi_acks", "adv_loc_policy", "telemetry_mode", "manual_add_contacts", "type",
          "public_key", "tx_power", "freq_mhz", "bw_khz"]
          [("max_tx_power", v₁), ("multi_acks", v₂), ("adv_loc_policy", v₃), ("telemetry_mode", v₄),
            ("manual_add_contacts", v₅), ("type", v₆), ("public_key", v₇), ("tx_power", v₈), ("freq_mhz", v₉),
            ("bw_khz", v₁₀)] := List.Sublist.refl _
    split
    all_goals
      refine yields_bind fun _ => Yields.bind decodeSelfInfoTail_among fun _ h => yields_ok.mpr ?_
      exact (((h.append hfixed).append coordinate_among).append coordinate_among).distinct (by simp)
  case h_12 =>
    refine yields_guarded List.nodup_nil (yields_bind fun _ => ?_)
    exact Yields.bind htwo fun _ h => yields_ok.mpr (h.cons.distinct (by simp))
  case h_13 =>
    refine yields_guarded List.nodup_nil (yields_bind fun _ => ?_)
    refine Yields.bind htwo fun _ hlimits => ?_
    refine Yields.bind hone fun _ hblePin => ?_
    refine Yields.bind hone fun _ hfwBuild => ?_
    refine Yields.bind hone fun _ hmodel => ?_
    refine Yields.bind hone fun _ hversion => ?_
    refine Yields.bind hone fun _ hclientRepeat => ?_
    refine Yields.bind hone fun _ hpathHashMode => yields_ok.mpr ?_
    have hall :=
      (((((hlimits.append hblePin).append hfwBuild).append hmodel).append hversion).append hclientRepeat).append
        hpathHashMode
    exact hall.cons.distinct (by simp)
  -- the others insert names that are written out
  all_goals repeat' first
    | refine yields_guarded List.nodup_nil ?_ | refine yields_bind fun _ => ?_ | split | dsimp only
  all_goals exact yields_ok.mpr (by simp [Distinct])

theorem Direction.decode_distinct {direction : Direction} {d : Decoded} (h : direction.decode code p = .ok (some d)) :
    d.Distinct := by
  have hresult {fields : Except Panic Decoded} (hfields : Yields Distinct fields)
      (h : (if p.isEmpty then .ok none else do return (← fields).result : Except Panic (Option Decoded)) =
        .ok (some d)) : d.Distinct := by
    split at h
    · cases h
    · obtain ⟨d₁, hd₁, h⟩ := Except.of_bind_eq_ok h
      have hsome : d₁.result = some d := Except.ok.inj h
      unfold Decoded.result at hsome
      split at hsome
      · cases hsome
      · exact Option.some.inj hsome ▸ hfields d₁ hd₁
  cases direction with
  | toRadio => exact hresult decodeCommandFields_distinct h
  | fromRadio => exact hresult decodeResponseFields_distinct h

theorem entryOf_perm {twoDecimals : Float → Bytes} {d d' : Decoded} (hperm : d'.Perm d) (hdistinct : d.Distinct) :
    entryOf twoDecimals d' = entryOf twoDecimals d := by
  funext k
  rw [entryOf, entryOf, Decoded.get, Decoded.get, lookup_of_perm hperm hdistinct]

/-- A line does not depend on the order in which the map of the decoded fields gives them: no decoder inserts a name
    twice, and the line has the fields in the order of their names. -/
theorem event_line_ordered {twoDecimals : Float → Bytes} {direction : Direction} {payload : Bytes} {level : LogLevel}
    {d d' : Decoded} (h : direction.decode code payload = .ok (some d)) (hperm : d'.Perm d) : (d.map (·.1)).Nodup ∧
      buildEventMsg twoDecimals direction (direction.typeName code) (some d') payload level =
        buildEventMsg twoDecimals direction (direction.typeName code) (some d) payload level := by
  have hdistinct := Direction.decode_distinct h
  have hkeys : (d'.map (·.1)).insertionSort (· ≤ ·) = (d.map (·.1)).insertionSort (· ≤ ·) :=
    insertionSort_eq_of_perm (f := id) (hperm.map _) (by rwa [List.map_id, (hperm.map _).nodup_iff])
  have hformat : formatDecoded twoDecimals d' = formatDecoded twoDecimals d := by
    rw [formatDecoded, formatDecoded, hkeys, entryOf_perm hperm hdistinct]
  refine ⟨hdistinct, ?_⟩
  rw [buildEventMsg, buildEventMsg, Option.map_some, Option.map_some, hformat]

theorem battery_line_ordered :
    buildEventMsg (fun _ => []) .fromRadio (Direction.fromRadio.typeName 0x0C)
        (some [("total_kb", .integer 4), ("used_kb", .integer 3), ("level_mv", .integer 513)])
        [0x0C, 1, 2, 3, 0, 0, 0, 4, 0, 0, 0] .summary =
      buildEventMsg (fun _ => []) .fromRadio (Direction.fromRadio.typeName 0x0C)
        (some [("level_mv", .integer 513), ("used_kb", .integer 3), ("total_kb", .integer 4)])
        [0x0C, 1, 2, 3, 0, 0, 0, 4, 0, 0, 0] .summary := by
  have hdecoded : Direction.fromRadio.decode 0x0C [0x0C, 1, 2, 3, 0, 0, 0, 4, 0, 0, 0] =
      .ok (some [("level_mv", .integer 513), ("used_kb", .integer 3), ("total_kb", .integer 4)]) := rfl
  exact (event_line_ordered hdecoded (List.reverse_perm _)).2

end
end CoreSplitter
