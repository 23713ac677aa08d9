import CoreSplitter.Theorems.Queue
import CoreSplitter.Lib.Wire

/-! The proxy with its radio and the link between them. The radio executes what it is sent in order; what it
    emits, and when, and how long that takes to arrive, is up to it. -/

namespace CoreSplitter
open Bytes

abbrev Frame := Wire.Frame Queued Bytes

/-- What a radio may do, and in which state it is then. -/
structure Radio (σ : Type) where
  /-- It executes a request. -/
  take : σ → Queued → σ → Prop
  /-- It emits a frame that replies to the request it executed, the last such frame or not. -/
  reply : σ → Queued → Bytes → Bool → σ → Prop
  /-- It emits a frame unasked. -/
  push : σ → Bytes → σ → Prop
  /-- Anything else that happens to it. -/
  drift : σ → σ → Prop
  /-- The link to it was lost and made again. -/
  relink : σ → σ → Prop

/-- A radio of which nothing is assumed. -/
def Radio.any : Radio Unit where
  take _ _ _ := True
  reply _ _ _ _ _ := True
  push _ _ _ := True
  drift _ _ := True
  relink _ _ := True

namespace Radio
variable {s s' : Unit} {q : Queued} {frame : Bytes} {last : Bool}

instance : Decidable (any.take s q s') := isTrue trivial
instance : Decidable (any.reply s q frame last s') := isTrue trivial
instance : Decidable (any.push s frame s') := isTrue trivial
instance : Decidable (any.drift s s') := isTrue trivial

end Radio

/-- What a turn of the core emitted, with the frame of the radio that it handled. -/
abbrev Entry := Option Frame × List Effect

instance : DecidableEq Entry := inferInstance

structure World (σ : Type) where
  core : Core
  wire : Wire Queued Bytes
  radio : σ
  log : List Entry

/-- Neither a frame nor the loss of the radio. -/
def Core.Event.isLocal : Core.Event → Bool
  | .radio _ _ | .disconnected _ => false
  | _ => true

namespace World
variable {σ : Type}

def history (w : World σ) : List Effect := w.log.flatMap (·.2)

/-- A turn of the core that ended in `c`, about `frame` if about any. -/
def turned (w : World σ) (c : Core) (frame : Option Frame) : World σ :=
  { w with core := c, wire := w.wire.send (sentToRadio c.out), log := w.log ++ [(frame, c.out)] }

/-- The next frame left the line. -/
def received (w : World σ) (rest : List Frame) : World σ := { w with wire := w.wire.receive rest }

/-- The core after it lost its radio, on a new line. -/
def relinked (w : World σ) (c : Core) (s : σ) : World σ :=
  { core := c, wire := .fresh (sentToRadio c.out), radio := s, log := w.log ++ [(none, c.out)] }

/-- `allow` restricts the turns of the core. -/
inductive Step (R : Radio σ) (allow : World σ → List (List FrontendOp) → Core.Event → Prop) : World σ → World σ → Prop
  | turn {w : World σ} {frontend : List (List FrontendOp)} {e : Core.Event} {c : Core} (hlocal : e.isLocal = true)
      (hallow : allow w frontend e) (h : w.core.step frontend e = .ok c) : Step R allow w (w.turned c none)
  | deliver {w : World σ} {frontend : List (List FrontendOp)} {env : Env} {f : Frame} {rest : List Frame} {c : Core}
      (hback : w.wire.back = f :: rest) (hallow : allow w frontend (.radio env f.body))
      (h : w.core.step frontend (.radio env f.body) = .ok c) : Step R allow w ((w.received rest).turned c (some f))
  | relink {w : World σ} {frontend : List (List FrontendOp)} {attempts : List Core.Attempt} {c : Core} {s : σ}
      (hallow : allow w frontend (.disconnected attempts)) (h : w.core.step frontend (.disconnected attempts) = .ok c)
      (hradio : R.relink w.radio s) : Step R allow w (w.relinked c s)
  | take {w : World σ} {q : Queued} {rest : List Queued} {s : σ} (hsent : w.wire.sent = q :: rest)
      (hfree : w.wire.serving = none) (hradio : R.take w.radio q s) :
      Step R allow w { w with wire := w.wire.take q rest, radio := s }
  | reply {w : World σ} {q : Queued} {frame : Bytes} {last : Bool} {s : σ} (hserving : w.wire.serving = some q)
      (hradio : R.reply w.radio q frame last s) :
      Step R allow w { w with wire := w.wire.reply q frame last, radio := s }
  | push {w : World σ} {frame : Bytes} {s : σ} (hradio : R.push w.radio frame s) :
      Step R allow w { w with wire := w.wire.push frame, radio := s }
  | drift {w : World σ} {s : σ} (hradio : R.drift w.radio s) : Step R allow w { w with radio := s }

inductive Run (R : Radio σ) (allow : World σ → List (List FrontendOp) → Core.Event → Prop) : World σ → World σ → Prop
  | refl (w : World σ) : Run R allow w w
  | step {w w₁ w₂ : World σ} : Run R allow w w₁ → Step R allow w₁ w₂ → Run R allow w w₂

/-- The proxy was started and runs its loop, after attempts to connect that all satisfy `q`. -/
def Started (q : Core.Attempt → Prop) (w : World σ) : Prop :=
  ∃ config db env first attempts, q first ∧ (∀ a ∈ attempts, q a) ∧
    (Core.new config db).start env first attempts = .ok w.core ∧
    w.wire = .fresh (sentToRadio w.core.out) ∧ w.log = [(none, w.core.out)]

section
variable {R : Radio σ} {allow allow' : World σ → List (List FrontendOp) → Core.Event → Prop} {w w₁ w₂ : World σ}
  {c : Core} {f : Option Frame} {rest : List Frame} {s : σ}

@[simp] theorem turned_core : (w.turned c f).core = c := rfl
@[simp] theorem turned_radio : (w.turned c f).radio = w.radio := rfl
@[simp] theorem turned_wire : (w.turned c f).wire = w.wire.send (sentToRadio c.out) := rfl
@[simp] theorem turned_log : (w.turned c f).log = w.log ++ [(f, c.out)] := rfl
@[simp] theorem received_core : (w.received rest).core = w.core := rfl
@[simp] theorem received_radio : (w.received rest).radio = w.radio := rfl
@[simp] theorem received_wire : (w.received rest).wire = w.wire.receive rest := rfl
@[simp] theorem received_log : (w.received rest).log = w.log := rfl
@[simp] theorem relinked_core : (w.relinked c s).core = c := rfl
@[simp] theorem relinked_radio : (w.relinked c s).radio = s := rfl
@[simp] theorem relinked_wire : (w.relinked c s).wire = .fresh (sentToRadio c.out) := rfl
@[simp] theorem relinked_log : (w.relinked c s).log = w.log ++ [(none, c.out)] := rfl

@[simp] theorem turned_history : (w.turned c f).history = w.history ++ c.out := by simp [history]
@[simp] theorem relinked_history : (w.relinked c s).history = w.history ++ c.out := by simp [history]
@[simp] theorem received_history : (w.received rest).history = w.history := rfl

theorem Step.mono (h : Step R allow w w₁) (ha : ∀ w frontend e, allow w frontend e → allow' w frontend e) :
    Step R allow' w w₁ := by
  cases h with
  | turn hlocal hallow h => exact .turn hlocal (ha _ _ _ hallow) h
  | deliver hback hallow h => exact .deliver hback (ha _ _ _ hallow) h
  | relink hallow h hradio => exact .relink (ha _ _ _ hallow) h hradio
  | take hsent hfree hradio => exact .take hsent hfree hradio
  | reply hserving hradio => exact .reply hserving hradio
  | push hradio => exact .push hradio
  | drift hradio => exact .drift hradio

theorem Run.mono (h : Run R allow w w₁) (ha : ∀ w frontend e, allow w frontend e → allow' w frontend e) :
    Run R allow' w w₁ := by
  induction h with
  | refl => exact .refl _
  | step _ hs ih => exact ih.step (hs.mono ha)

theorem Run.trans (h₁ : Run R allow w w₁) (h₂ : Run R allow w₁ w₂) : Run R allow w w₂ := by
  induction h₂ with
  | refl => exact h₁
  | step _ hs ih => exact ih.step hs

/-- What holds of a world and is kept by each step holds after every run. -/
theorem Run.invariant {P : World σ → Prop} (hr : Run R allow w w₁) (h : P w)
    (hstep : ∀ w₁ w₂, Run R allow w w₁ → P w₁ → Step R allow w₁ w₂ → P w₂) : P w₁ := by
  induction hr with
  | refl => exact h
  | step hr hs ih => exact hstep _ _ hr ih hs

/-! ### Worlds that are run -/

end

/-- A step, with the choices that the world leaves open. -/
inductive Act (σ : Type)
  | turn (frontend : List (List FrontendOp)) (e : Core.Event)
  | deliver (frontend : List (List FrontendOp)) (env : Env)
  | take (s : σ)
  | reply (frame : Bytes) (last : Bool) (s : σ)
  | push (frame : Bytes) (s : σ)
  | drift (s : σ)

/-- The world after a step, if it can happen now. -/
def act (w : World σ) : Act σ → Option (World σ)
  | .turn frontend e => if e.isLocal then (w.core.step frontend e).toOption.map fun c => w.turned c none else none
  | .deliver frontend env =>
    match w.wire.back with
    | f :: rest => (w.core.step frontend (.radio env f.body)).toOption.map fun c => (w.received rest).turned c (some f)
    | [] => none
  | .take s =>
    match w.wire.sent, w.wire.serving with
    | q :: rest, none => some { w with wire := w.wire.take q rest, radio := s }
    | _, _ => none
  | .reply frame last s => w.wire.serving.map fun q => { w with wire := w.wire.reply q frame last, radio := s }
  | .push frame s => some { w with wire := w.wire.push frame, radio := s }
  | .drift s => some { w with radio := s }

def acts (w : World σ) (l : List (Act σ)) : Option (World σ) := l.foldlM act w

/-- The choices of a step are ones that its radio and the restriction of the turns allow. -/
def Act.Fits (R : Radio σ) (allow : World σ → List (List FrontendOp) → Core.Event → Prop) (w : World σ) : Act σ → Prop
  | .turn frontend e => allow w frontend e
  | .deliver frontend env => ∀ f ∈ w.wire.back.head?, allow w frontend (.radio env f.body)
  | .take s => ∀ q ∈ w.wire.sent.head?, R.take w.radio q s
  | .reply frame last s => ∀ q ∈ w.wire.serving, R.reply w.radio q frame last s
  | .push frame s => R.push w.radio frame s
  | .drift s => R.drift w.radio s

instance Act.decidableFits {R : Radio σ} {allow : World σ → List (List FrontendOp) → Core.Event → Prop} {w : World σ}
    [∀ s q s', Decidable (R.take s q s')] [∀ s q frame last s', Decidable (R.reply s q frame last s')]
    [∀ s frame s', Decidable (R.push s frame s')] [∀ s s', Decidable (R.drift s s')]
    [∀ w frontend e, Decidable (allow w frontend e)] : (a : Act σ) → Decidable (a.Fits R allow w)
  | .turn frontend e => inferInstanceAs (Decidable (allow w frontend e))
  | .deliver frontend env =>
    inferInstanceAs (Decidable (∀ f ∈ w.wire.back.head?, allow w frontend (.radio env f.body)))
  | .take s => inferInstanceAs (Decidable (∀ q ∈ w.wire.sent.head?, R.take w.radio q s))
  | .reply frame last s => inferInstanceAs (Decidable (∀ q ∈ w.wire.serving, R.reply w.radio q frame last s))
  | .push frame s => inferInstanceAs (Decidable (R.push w.radio frame s))
  | .drift s => inferInstanceAs (Decidable (R.drift w.radio s))

def Fits (R : Radio σ) (allow : World σ → List (List FrontendOp) → Core.Event → Prop) (w : World σ) :
    List (Act σ) → Prop
  | [] => True
  | a :: l => a.Fits R allow w ∧ ∀ w₁ ∈ w.act a, Fits R allow w₁ l

instance decidableFits {R : Radio σ} {allow : World σ → List (List FrontendOp) → Core.Event → Prop}
    [∀ w a, Decidable (Act.Fits R allow w a)] : (w : World σ) → (l : List (Act σ)) → Decidable (w.Fits R allow l)
  | _, [] => isTrue trivial
  | w, a :: l =>
    have (w₁ : World σ) : Decidable (Fits R allow w₁ l) := decidableFits w₁ l
    inferInstanceAs (Decidable (a.Fits R allow w ∧ ∀ w₁ ∈ w.act a, Fits R allow w₁ l))

/-- A proxy with an empty database that is started while every call succeeds, and whose radio has one channel. -/
def boot (s : σ) : Option (World σ) :=
  ((Core.new ⟨.off, true, false, ⟨0, 0, 0, 0⟩, .off⟩ .empty).start Core.sound
    ⟨true, [.frame [0x05], .frame [0x0D, 9, 1, 1]], Core.sound, Core.sound, Core.sound⟩ []).toOption.map
    fun c => ⟨c, .fresh (sentToRadio c.out), s, [(none, c.out)]⟩

theorem toOption_eq_some {ε α : Type} {x : Except ε α} {y : α} (h : x.toOption = some y) : x = .ok y := by
  cases x with
  | error => cases h
  | ok => exact congrArg _ (Option.some.inj h)

section
variable {R : Radio σ} {allow allow' : World σ → List (List FrontendOp) → Core.Event → Prop} {w w₁ w₂ : World σ}
  {q : Core.Attempt → Prop} {a : Act σ} {l : List (Act σ)} {s : σ}

theorem started_of_boot (h : boot s = some w)
    (hq : ∀ a : Core.Attempt, a.syncEnv.writerOpen = true → q a) : Started q w := by
  obtain ⟨c, hc, rfl⟩ := Option.map_eq_some_iff.mp h
  exact ⟨_, _, _, _, [], hq _ rfl, List.forall_mem_nil _, toOption_eq_some hc, rfl, rfl⟩

theorem Step.of_act (h : w.act a = some w₁) (hfit : a.Fits R allow w) : Step R allow w w₁ := by
  cases a with
  | turn frontend e =>
    simp only [act] at h
    split at h
    · rename_i hlocal
      obtain ⟨c, hc, rfl⟩ := Option.map_eq_some_iff.mp h
      exact .turn hlocal hfit (toOption_eq_some hc)
    · cases h
  | deliver frontend env =>
    simp only [act] at h
    split at h
    · rename_i f rest hback
      obtain ⟨c, hc, rfl⟩ := Option.map_eq_some_iff.mp h
      exact .deliver hback (hfit f (by simp [hback])) (toOption_eq_some hc)
    · cases h
  | take s =>
    simp only [act] at h
    split at h
    · rename_i q rest hsent hfree
      cases h
      exact .take hsent hfree (hfit q (by simp [hsent]))
    · cases h
  | reply frame last s =>
    obtain ⟨q, hserving, rfl⟩ := Option.map_eq_some_iff.mp h
    exact .reply hserving (hfit q hserving)
  | push frame s =>
    cases h
    exact .push hfit
  | drift s =>
    cases h
    exact .drift hfit

theorem Run.of_acts (h : w.acts l = some w₁) (hfit : w.Fits R allow l) : Run R allow w w₁ := by
  induction l generalizing w with
  | nil =>
    cases h
    exact .refl _
  | cons a l ih =>
    obtain ⟨w₂, ha, h⟩ := Option.bind_eq_some_iff.mp (by simpa [acts, List.foldlM_cons] using h)
    exact ((Run.refl w).step (.of_act ha hfit.1)).trans (ih h (hfit.2 w₂ ha))

/-- Every turn among the choices handles such an event. -/
def Act.Handles (p : Core.Event → Prop) : Act σ → Prop
  | .turn _ e => p e
  | .deliver _ env => ∀ frame, p (.radio env frame)
  | .take _ | .reply _ _ _ | .push _ _ | .drift _ => True

/-- What the choices handle tells that more of their turns are allowed. -/
theorem Fits.mono {p : Core.Event → Prop} (hfit : w.Fits R allow l) (hl : ∀ a ∈ l, a.Handles p)
    (h : ∀ w frontend e, allow w frontend e → p e → allow' w frontend e) : w.Fits R allow' l := by
  induction l generalizing w with
  | nil => trivial
  | cons a l ih =>
    obtain ⟨ha, hl⟩ := List.forall_mem_cons.mp hl
    refine ⟨?_, fun w₁ hw₁ => ih (hfit.2 w₁ hw₁) hl⟩
    have hfit := hfit.1
    cases a with
    | turn frontend e => exact h _ _ _ hfit ha
    | deliver frontend env => exact fun f hf => h _ _ _ (hfit f hf) (ha f.body)
    | take | reply | push | drift => exact hfit

/-- A run that starts with `boot` and takes these steps. -/
theorem exists_run {P : World σ → World σ → Prop}
    (h : ∃ w₀ ∈ boot s, w₀.Fits R allow l ∧ ∃ w ∈ w₀.acts l, P w₀ w)
    (hq : ∀ a : Core.Attempt, a.syncEnv.writerOpen = true → q a) :
    ∃ w₀ w, Started q w₀ ∧ Run R allow w₀ w ∧ P w₀ w := by
  obtain ⟨w₀, hboot, hfit, w, hw, hP⟩ := h
  exact ⟨w₀, w, started_of_boot hboot hq, .of_acts hw hfit, hP⟩

/-! ### The core of a world -/

/-- The turns that a world allows its core. -/
def Allowed (allow : World σ → List (List FrontendOp) → Core.Event → Prop) (c : Core)
    (frontend : List (List FrontendOp)) (e : Core.Event) : Prop := ∃ w, w.core = c ∧ allow w frontend e

/-- What the core does in a world is a run of its main loop. -/
theorem Run.core (hr : Run R allow w w₁) :
    ∃ h, Core.Run (Allowed allow) w.core h w₁.core ∧ w₁.history = w.history ++ h := by
  induction hr with
  | refl => exact ⟨[], .refl _, (List.append_nil _).symm⟩
  | step _ hs ih =>
    obtain ⟨h, hrun, hhist⟩ := ih
    cases hs with
    | turn _ hallow hs =>
      exact ⟨_, hrun.step ⟨_, rfl, hallow⟩ hs, by rw [turned_history, hhist]; exact List.append_assoc ..⟩
    | deliver _ hallow hs =>
      exact ⟨_, hrun.step ⟨_, rfl, hallow⟩ hs,
        by rw [turned_history, received_history, hhist]; exact List.append_assoc ..⟩
    | relink hallow hs _ =>
      exact ⟨_, hrun.step ⟨_, rfl, hallow⟩ hs, by rw [relinked_history, hhist]; exact List.append_assoc ..⟩
    | take | reply | push | drift => exact ⟨h, hrun, hhist⟩

theorem Run.reachable (hr : Run R allow w w₁) (hstart : Started q w) :
    Core.ReachableWith q (Allowed allow) w₁.history w₁.core := by
  obtain ⟨h, hrun, hhist⟩ := hr.core
  obtain ⟨config, db, env, first, attempts, hfirst, hattempts, hcore, -, hlog⟩ := hstart
  refine ⟨config, db, env, first, attempts, w.core, h, hfirst, hattempts, hcore, hrun, ?_⟩
  rw [hhist]
  simp [history, hlog]

end
end World
end CoreSplitter
