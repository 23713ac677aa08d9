import CoreSplitter.Theorems.Stored

/-! Message layouts: the radio is asked for one version only, and each client gets messages in the layout of the
    version it asked for itself. -/

namespace CoreSplitter
open Bytes

/-! ### Layouts -/

/-- A message with SNR and reserved bytes is long enough to hold them. -/
def Whole (frame : Bytes) : Prop := frame.head? = some 0x10 ∨ frame.head? = some 0x11 → 4 ≤ frame.length

instance {frame : Bytes} : Decidable (Whole frame) := inferInstanceAs (Decidable (_ → _))

/-- Messages below version 3 come without SNR and reserved bytes, from version 3 on with them. -/
structure InLayout (version : UInt8) (frame : Bytes) : Prop where
  v1 : version < 3 → frame.head? ≠ some 0x10 ∧ frame.head? ≠ some 0x11
  v3 : 3 ≤ version → frame.head? ≠ some 0x07 ∧ frame.head? ≠ some 0x08

theorem messageFrameFor_inLayout {version : UInt8} {frame : Bytes} (h : Whole frame) :
    InLayout version (messageFrameFor version frame) := by
  unfold messageFrameFor
  split
  · exact ⟨fun _ => ⟨nofun, nofun⟩, fun _ => ⟨nofun, nofun⟩⟩
  · rename_i code rest
    have hwhole : code = 0x10 ∨ code = 0x11 → (code :: rest).length ≥ 4 := fun hcode =>
      h (hcode.imp (congrArg some) (congrArg some))
    split
    · rename_i hcut
      obtain ⟨hcode, hversion, -⟩ := hcut
      refine ⟨fun _ => ?_, fun h => absurd h hversion⟩
      rcases hcode with rfl | rfl <;> simp
    · rename_i hcut
      split
      · rename_i hpad
        obtain ⟨hcode, hversion⟩ := hpad
        refine ⟨fun h => absurd hversion (UInt8.not_le.mpr h), fun _ => ?_⟩
        rcases hcode with rfl | rfl <;> simp
      · rename_i hpad
        refine ⟨fun h => ?_, fun h => ?_⟩
        · have hcode : ¬(code = 0x10 ∨ code = 0x11) := fun hcode => hcut ⟨hcode, UInt8.not_le.mpr h, hwhole hcode⟩
          simpa [not_or] using hcode
        · have hcode : ¬(code = 0x07 ∨ code = 0x08) := fun hcode => hpad ⟨hcode, h⟩
          simpa [not_or] using hcode

/-- What the database keeps for clients is whole. -/
structure NodeState.Whole (db : NodeState) : Prop where
  messages : ∀ m ∈ db.messages, ∀ frame, m.frame = some frame → CoreSplitter.Whole frame
  kv : ∀ key blob, key ≠ .contactsSyncedAt → db.kvGet key = some blob → CoreSplitter.Whole blob

theorem NodeState.Whole.empty : NodeState.empty.Whole := ⟨fun _ h => absurd h List.not_mem_nil, nofun⟩

/-- A frame for a client is in the layout of the version that it asked for. -/
def Effect.LaidOut (v : ClientId → UInt8) : Effect → Prop
  | .client cid _ _ frame _ => InLayout (v cid) frame
  | _ => True

/-- A DEVICE_QUERY that goes to the radio asks for the version of the proxy. -/
def Effect.Asks : Effect → Prop
  | .radio q => q.payload.Negotiates
  | .radioInit p => p.Negotiates
  | _ => True

namespace Core

/-- A frame of the radio is whole. -/
def Event.Whole : Event → Prop
  | .radio _ frame => CoreSplitter.Whole frame
  | _ => True

theorem whole_of_code {code : UInt8} {rest : Bytes} (h : code ≠ 0x10 ∧ code ≠ 0x11) : Whole (code :: rest) := by
  rintro (hcode | hcode)
  · exact absurd (Option.some.inj hcode) h.1
  · exact absurd (Option.some.inj hcode) h.2

theorem IsRow.whole {frame : Bytes} (h : IsRow frame) : Whole frame := by
  rintro (hcode | hcode) <;> rcases h.code with h | h | h | h <;> rw [h] at hcode <;> cases hcode

section
variable {S : Scope} {P : Audience} {c c₁ : Core} {cid : ClientId} {why : Why} {payload : Bytes}

theorem EchoOf.whole {f : InFlight} {echo : NewMessage} (h : c.EchoOf f echo) : Whole echo.frame := by
  cases h with
  | contact => exact whole_of_code ⟨by decide, by decide⟩
  | channel => exact whole_of_code ⟨by decide, by decide⟩

theorem supplies_whole (hframe : ∀ frame, S.frame frame → Whole frame) : Supplies S Whole Whole where
  message frame _ h _ _ := hframe frame h
  blob frame _ h _ _ := hframe frame h
  echo _ _ _ _ h := h.whole

theorem Source.whole (h : Source S c cid why payload) (hframe : ∀ frame, S.frame frame → Whole frame)
    (hholds : Holds Whole Whole c) : Whole payload := by
  cases h with
  | reply h => exact hframe payload h.received
  | fanout h => exact hframe payload h.received
  | ack h => exact hframe payload h
  | error | notify => exact whole_of_code ⟨by decide, by decide⟩
  | replay _ _ _ _ hnext _ =>
    obtain ⟨m, hm, hframe⟩ := nextMissed_stored hnext
    exact hholds.messages m hm payload hframe
  | blob _ _ _ h => exact hholds.blobs payload h.isBlob
  | row _ _ _ _ h => exact h.whole
  | echo _ _ _ h => exact h.whole

/-! ### Runs -/

theorem Holds.whole_db (h : Holds Whole Whole c) : c.db.Whole := ⟨h.messages, h.kv⟩

theorem startScope_whole {env : Env} {attempts : List Attempt} {frame : Bytes}
    (h : (startScope env attempts).frame frame) : Whole frame := by
  rintro (hcode | hcode) <;> rcases h.2 with h | h <;> rw [h] at hcode <;> cases hcode

theorem scope_whole {e : Event} (he : e.Whole) {frame : Bytes} (h : (e.scope c).frame frame) : Whole frame := by
  cases e with
  | radio env payload => exact h ▸ he
  | disconnected attempts => rintro (hcode | hcode) <;> rcases h.2 with h | h <;> rw [h] at hcode <;> cases hcode
  | command | timeoutTick | maintenanceTick | idle => exact h.elim

variable {v : ClientId → UInt8} {frontend : List (List FrontendOp)} {e : Event}

theorem Holds.begin {M B : Bytes → Prop} (h : Holds M B c) : Holds M B (c.begin frontend) := h.of_eq rfl rfl rfl rfl rfl

theorem step_whole (h : c.step frontend e = .ok c₁) (ht : Told v .any c) (hholds : Holds Whole Whole c)
    (he : e.Whole) : Tells (e.asked v (c.begin frontend)) (e.audience (c.begin frontend)) (fun _ _ => Whole) c₁ ∧
      Holds Whole Whole c₁ :=
  step_tells h ht hholds.begin (fun _ _ hw => hw.holds (supplies_whole fun _ => scope_whole he))
    fun _ hholds _ _ _ _ h => h.whole (fun _ => scope_whole he) hholds

theorem Tells.laidOut (h : Tells v P (fun _ _ => Whole) c) : ∀ x ∈ c.out, x.LaidOut v := by
  intro x hx
  have hspoken := h.out x hx
  cases x with
  | client cid who version frame why =>
    obtain ⟨rfl, -, payload, rfl, hwhole⟩ := hspoken
    exact messageFrameFor_inLayout hwhole
  | _ => trivial

variable {p : (ClientId → UInt8) → Core → List (List FrontendOp) → Event → Prop} {v₀ : ClientId → UInt8} {c₀ : Core}
  {h : List Effect}

theorem AskingRun.whole (hr : AskingRun p v₀ c₀ h v c) (hp : ∀ v c frontend e, p v c frontend e → e.Whole)
    (ht : Told v₀ .any c₀) (hholds : Holds Whole Whole c₀) : Told v .any c ∧ Holds Whole Whole c := by
  induction hr with
  | refl => exact ⟨ht, hholds⟩
  | step _ he hs ih =>
    obtain ⟨ht, hholds⟩ := ih
    obtain ⟨htells, hholds⟩ := step_whole hs ht hholds (hp _ _ _ _ he)
    exact ⟨htells.told.forget, hholds⟩

/-- What is handed to the queue, and what initialises the radio, asks for the version of the proxy. -/
theorem Tells.negotiates {S : Scope} {met : ClientId → Prop} {q : ClientId → Why → Bytes → Prop}
    (h : Tells v ⟨met, S.Emits⟩ q c) : ∀ x ∈ c.out, x.Negotiates := by
  intro x hx
  have hspoken := h.out x hx
  cases x with
  | client => trivial
  | _ => exact Scope.Emits.negotiates hspoken

theorem AskingRun.negotiates (hr : AskingRun p v₀ c₀ h v c) (ht : Told v₀ .any c₀) : ∀ x ∈ h, x.Negotiates := by
  induction hr with
  | refl => exact List.forall_mem_nil _
  | step hr _ hs ih =>
    exact fun x hx => (List.mem_append.mp hx).elim (ih x) ((step_emits hs (hr.told ht)).negotiates x)

variable {config : Config} {db : NodeState} {env : Env} {first : Attempt} {attempts : List Attempt}

/-- However many clients ask for whatever versions, the radio is asked for the proxy's, and each client gets every
    message in the layout of the version that it asked for itself. -/
theorem layout_isolated (hstart : (Core.new config db).start env first attempts = .ok c₀)
    (hrun : AskingRun p (fun _ => 0) c₀ h v c) :
    (∀ x ∈ c₀.out ++ h, x.Asks) ∧
    (db.Whole → (∀ v c frontend e, p v c frontend e → e.Whole) →
      (∀ x ∈ c₀.out, x.LaidOut fun _ => 0) ∧ c.db.Whole ∧
      ∀ frontend e c', e.Whole → c.step frontend e = .ok c' →
      ∀ x ∈ c'.out, x.LaidOut (e.asked v (c.begin frontend))) := by
  constructor
  · have hstarted := start_emits hstart
    have hasks (x : Effect) (hx : x ∈ c₀.out ++ h) : x.Negotiates :=
      (List.mem_append.mp hx).elim (hstarted.negotiates x) (hrun.negotiates hstarted.told.forget x)
    have hreach : Reachable (c₀.out ++ h) c :=
      ⟨config, db, env, first, attempts, c₀, h, trivial, fun _ _ => trivial, hstart, hrun.run, rfl⟩
    obtain ⟨ha, -⟩ : Accounted False (c₀.out ++ h) c ∧ (False → c.Idle) :=
      hreach.accounted False.elim fun _ _ _ => False.elim
    intro x hx
    cases x with
    | radio q =>
      have hhanded : q ∈ handedOver (c₀.out ++ h) :=
        submitted_laneEvents ▸ ha.lane.submitted_of_started (started_laneEvents ▸ mem_sentToRadio.mpr hx)
      exact hasks _ (mem_handedOver.mp hhanded)
    | radioInit p => exact hasks _ hx
    | _ => trivial
  · intro hdb hp
    have hnew : Holds Whole Whole (Core.new config db) :=
      ⟨hdb.messages, fun blob hblob => by simp [IsBlob, Core.new] at hblob, hdb.kv⟩
    obtain ⟨hstarted, hholds⟩ := start_tells (q := fun _ _ => Whole) hstart hnew
      (fun _ _ hw => hw.holds (supplies_whole fun _ => startScope_whole))
      fun _ hholds _ _ _ h => h.whole (fun _ => startScope_whole) hholds
    obtain ⟨ht, hholds⟩ := hrun.whole hp hstarted.told.forget hholds
    refine ⟨hstarted.laidOut, hholds.whole_db, fun frontend e c' he hs => ?_⟩
    exact (step_whole hs ht hholds he).1.laidOut

/-- Two clients ask for different versions, and one of them polls. -/
def versioned : List Turn := [([[.connect, .connect]], queryOf 1 2), ([], queryOf 2 3), ([], pollOf 1)]

theorem layout_isolated_v2_run : Except.Holds (do
    let c₀ ← behind
    let (l, c₁) ← c₀.laps versioned
    let c₂ ← c₁.step [] (.radio sound shortMessage)
    return (c₀, l, c₁, c₂)) fun (_, _, c₁, c₂) => c₁.clients.channels = [1, 2] ∧
      (c₁.protocolVersion 1 = 2 ∧ c₁.protocolVersion 2 = 3) ∧
      .client 1 none 2 [0x08, 0, 0, 0, 0, 0, 0, 0] (.reply 2) ∈ c₂.out ∧
      .client 2 none 3 shortMessage (.fanout 2) ∈ c₂.out := by
  decide +kernel

/-- Both get the message that is polled, each in its own layout. -/
theorem layout_isolated_v2 : ∃ c₀ h v c c', behind = .ok c₀ ∧ AskingRun (fun _ _ _ e => e.Whole) (fun _ => 0) c₀ h v c ∧
    c.step [] (.radio sound shortMessage) = .ok c' ∧ (v 1 = 2 ∧ v 2 = 3) ∧
    (.client 1 none 2 [0x08, 0, 0, 0, 0, 0, 0, 0] (.reply 2) ∈ c'.out ∧
      .client 2 none 3 shortMessage (.fanout 2) ∈ c'.out) ∧
    (∀ x ∈ c₀.out ++ h, x.Asks) ∧ ∀ x ∈ c'.out, x.LaidOut v := by
  obtain ⟨⟨c₀, l, c₁, c₂⟩, hrun, hclients, ⟨hversion₁, hversion₂⟩, hsent⟩ := layout_isolated_v2_run
  obtain ⟨_, hboot, hrun⟩ := Except.of_bind_eq_ok hrun
  obtain ⟨⟨_, _⟩, hlaps, hrun⟩ := Except.of_bind_eq_ok hrun
  obtain ⟨_, hradio, hrun⟩ := Except.of_bind_eq_ok hrun
  cases hrun
  obtain ⟨htrace, hturns⟩ := Trace.of_laps hlaps
  have hcommands : ∀ t ∈ versioned, t.2.Whole := by simp [versioned, queryOf, pollOf, Event.Whole]
  have hempty : AskingRun (fun _ _ _ e => e.Whole) (fun _ => 0) c₀ [] (fun _ => 0) c₀ := .refl
  obtain ⟨v, hasking⟩ := hempty.trace htrace fun s hs _ => hcommands _ (hturns s hs)
  have hasked := (hasking.told (start_told hboot)).connected
  rw [hclients] at hasked
  obtain ⟨hasks, hlaid⟩ := layout_isolated hboot hasking
  have hdb : unseen.Whole := by
    refine ⟨fun m hm frame hframe => ?_, nofun⟩
    obtain rfl := List.mem_singleton.mp hm
    obtain rfl : frame = [0x07] := (Option.some.inj hframe).symm
    decide
  exact ⟨c₀, _, v, c₁, c₂, hboot, hasking, hradio, ⟨(hasked 1 (by decide)).symm.trans hversion₁,
    (hasked 2 (by decide)).symm.trans hversion₂⟩, hsent, hasks,
    (hlaid hdb fun _ _ _ _ he => he).2.2 [] (.radio sound shortMessage) c₂ (show Whole shortMessage by decide) hradio⟩

end
end Core
end CoreSplitter
