import CoreSplitter.World.Basic

/-! One connection to the radio: the backend's tasks that read and write it and report its end (`backend/tcp.rs`,
    `backend/serial.rs`), the task of `connect_backend` that forwards its frames, and the core that handles them. -/

namespace CoreSplitter

/-- A connection, from `connect_backend` until the core sees the end of its stream. -/
structure Link where
  /-- The reader, the writer and the forwarding task still run. -/
  reading : Bool
  writing : Bool
  forwarding : Bool
  /-- The frames on the two channels, and whether the disconnect signal was sent. -/
  recvRx : List Bytes
  radioRecvRx : List Bytes
  disconnectRx : Bool
  /-- The core, once its main loop runs. -/
  core : Option Core
  /-- The core still listens to this connection. -/
  attached : Bool
  /-- What the reader put on its channel, and what of it before the link closed or a write failed. -/
  received : List Bytes
  owed : List Bytes
  /-- What the initialisation took, and what `handle_radio_rx` was given. -/
  awaited : List Bytes
  handled : List Bytes

namespace Link

/-- `connect_backend` has just returned. -/
def connected : Link where
  reading := true
  writing := true
  forwarding := true
  recvRx := []
  radioRecvRx := []
  disconnectRx := false
  core := none
  attached := true
  received := []
  owed := []
  awaited := []
  handled := []

/-- A frame that nobody waits for any more is dropped with its channel. -/
def receive (w : Link) (frame : Bytes) : Link :=
  { w with
    recvRx := if w.forwarding then w.recvRx ++ [frame] else []
    received := w.received ++ [frame]
    owed := if w.writing then w.owed ++ [frame] else w.owed }

inductive Step : Link → Link → Prop
  | receive {w : Link} (frame : Bytes) (h : w.reading = true) : Step w (w.receive frame)
  /-- The connection was closed, or the reader failed. -/
  | close {w : Link} : Step w { w with reading := false }
  | failWrite {w : Link} : Step w { w with writing := false }
  | report {w : Link} (h : w.reading = false ∨ w.writing = false) : Step w { w with disconnectRx := true }
  | forward {w : Link} {frame : Bytes} {rest : List Bytes} (h : w.forwarding = true)
      (hrecv : w.recvRx = frame :: rest) :
      Step w { w with recvRx := rest, radioRecvRx := w.radioRecvRx ++ [frame] }
  /-- `recv_rx` gives `None`: its sender is gone, and nothing is left. -/
  | finish {w : Link} (h : w.forwarding = true) (hrecv : w.recvRx = []) (hread : w.reading = false) :
      Step w { w with forwarding := false }
  /-- The other branch of its `select!`, whatever `recv_rx` still holds. -/
  | cut {w : Link} (h : w.forwarding = true) (hsignal : w.disconnectRx = true) :
      Step w { w with forwarding := false, recvRx := [] }
  /-- `wait_for_self_info` and `wait_for_device_info`. -/
  | await {w : Link} {frame : Bytes} {rest : List Bytes} (hcore : w.core = none)
      (hrecv : w.radioRecvRx = frame :: rest) :
      Step w { w with radioRecvRx := rest, awaited := w.awaited ++ [frame] }
  /-- The initialisation succeeded. -/
  | loop {w : Link} {h : List Effect} {c : Core} (hcore : w.core = none) (hreach : Core.Reachable h c) :
      Step w { w with core := some c }
  | handle {w : Link} {frame : Bytes} {rest : List Bytes} {c c' : Core} {frontend : List (List FrontendOp)} {env : Env}
      (hattached : w.attached = true) (hcore : w.core = some c) (hrecv : w.radioRecvRx = frame :: rest)
      (h : c.step frontend (.radio env frame) = .ok c') :
      Step w { w with core := some c', radioRecvRx := rest, handled := w.handled ++ [frame] }
  /-- The main loop finds the end of the stream and reconnects. -/
  | lose {w : Link} {c c' : Core} {frontend : List (List FrontendOp)} {attempts : List Core.Attempt}
      (hattached : w.attached = true) (hcore : w.core = some c) (hrecv : w.radioRecvRx = [])
      (hend : w.forwarding = false) (h : c.step frontend (.disconnected attempts) = .ok c') :
      Step w { w with core := some c', attached := false }
  /-- The main loop handles anything else. -/
  | turn {w : Link} {c c' : Core} {frontend : List (List FrontendOp)} {e : Core.Event} (hattached : w.attached = true)
      (hcore : w.core = some c) (hlocal : e.isLocal = true) (h : c.step frontend e = .ok c') :
      Step w { w with core := some c' }

/-- A schedule of the tasks, step by step. -/
inductive Run : Link → List (Link × Link) → Link → Prop
  | refl (w : Link) : Run w [] w
  | step {w w₁ w₂ : Link} {l : List (Link × Link)} : Run w l w₁ → Step w₁ w₂ → Run w (l ++ [(w₁, w₂)]) w₂

/-- What is left on the receive channel arrived after the link had closed or a write had failed. -/
def Spares (w : Link) : Prop := w.owed.length + w.recvRx.length ≤ w.received.length

/-- Wherever the forwarding task ends, nothing is left that it owes. -/
def Drained (l : List (Link × Link)) : Prop :=
  ∀ w w', (w, w') ∈ l → w.forwarding = true → w'.forwarding = false → w.Spares

/-- What the core took off this connection. -/
def taken (w : Link) : List Bytes := w.awaited ++ w.handled

/-- What the forwarding task passed on. -/
def forwarded (w : Link) : List Bytes := w.taken ++ w.radioRecvRx

/-- Frames are passed on in order while the forwarding task runs. Once it has ended, as much is passed on as ever
    will be: all that is owed, if it ended with nothing of it left. -/
structure Ordered (l : List (Link × Link)) (w : Link) : Prop where
  owed : w.owed <+: w.received
  whole : w.reading = true → w.writing = true → w.owed = w.received
  signal : w.disconnectRx = true → w.reading = false ∨ w.writing = false
  running : w.forwarding = true → w.received = w.forwarded ++ w.recvRx ∧ Drained l
  ended : w.forwarding = false → w.forwarded <+: w.received ∧ (w.reading = false ∨ w.writing = false) ∧
    (Drained l ↔ w.owed.length ≤ w.forwarded.length)
  left : w.attached = false → w.radioRecvRx = [] ∧ w.forwarding = false
  early : w.core = none → w.handled = []

section
variable {w w' w₀ : Link} {l : List (Link × Link)}

theorem drained_nil : Drained [] := fun _ _ hmem => absurd hmem List.not_mem_nil

theorem connected_ordered : Ordered [] connected where
  owed := List.nil_prefix
  whole _ _ := rfl
  signal h := Bool.noConfusion h
  running _ := ⟨rfl, drained_nil⟩
  ended h := Bool.noConfusion h
  left h := Bool.noConfusion h
  early _ := rfl

theorem drained_snoc : Drained (l ++ [(w, w')]) ↔
    Drained l ∧ (w.forwarding = true → w'.forwarding = false → w.Spares) := by
  constructor
  · intro h
    exact ⟨fun a b hmem => h a b (List.mem_append_left _ hmem),
      h w w' (List.mem_append_right _ (List.mem_singleton.mpr rfl))⟩
  · rintro ⟨hold, hnew⟩ a b hmem
    rcases List.mem_append.mp hmem with hmem | hmem
    · exact hold a b hmem
    · obtain ⟨rfl, rfl⟩ := Prod.mk.inj (List.mem_singleton.mp hmem)
      exact hnew

/-- Steps at which the forwarding task does not end change nothing about how it ended. -/
theorem drained_snoc_of_same (h : w'.forwarding = w.forwarding) : Drained (l ++ [(w, w')]) ↔ Drained l := by
  rw [drained_snoc, h, and_iff_left fun htrue hfalse => by rw [htrue] at hfalse; cases hfalse]

/-- A step that touches neither the tasks nor the frames between them. -/
theorem Ordered.same (h : Ordered l w) (hreading : w'.reading = w.reading) (hwriting : w'.writing = w.writing)
    (hforwarding : w'.forwarding = w.forwarding) (hrecv : w'.recvRx = w.recvRx)
    (hsignal : w'.disconnectRx = true → w.reading = false ∨ w.writing = false) (hreceived : w'.received = w.received)
    (howed : w'.owed = w.owed) (hforwarded : w'.forwarded = w.forwarded)
    (hleft : w'.attached = false → w'.radioRecvRx = [] ∧ w'.forwarding = false)
    (hearly : w'.core = none → w'.handled = []) : Ordered (l ++ [(w, w')]) w' := by
  have hsame : Drained (l ++ [(w, w')]) ↔ Drained l := drained_snoc_of_same hforwarding
  constructor
  · rw [howed, hreceived]; exact h.owed
  · rw [hreading, hwriting, howed, hreceived]; exact h.whole
  · rw [hreading, hwriting]; exact hsignal
  · rw [hforwarding, hreceived, hforwarded, hrecv, hsame]; exact h.running
  · rw [hforwarding, hreceived, hforwarded, hreading, hwriting, howed, hsame]; exact h.ended
  · exact hleft
  · exact hearly

theorem Ordered.receive (h : Ordered l w) (frame : Bytes) (hreading : w.reading = true) :
    Ordered (l ++ [(w, w.receive frame)]) (w.receive frame) := by
  have hsame : Drained (l ++ [(w, w.receive frame)]) ↔ Drained l := drained_snoc_of_same rfl
  have hwhole : w.writing = true → (w.receive frame).owed = w.received ++ [frame] := by
    intro hwriting
    simp [Link.receive, hwriting, h.whole hreading hwriting]
  constructor
  · by_cases hwriting : w.writing = true
    · rw [hwhole hwriting]
      exact List.prefix_refl _
    · have howed : (w.receive frame).owed = w.owed := by simp [Link.receive, hwriting]
      rw [howed]
      exact h.owed.trans (List.prefix_append _ _)
  · exact fun _ hwriting => hwhole hwriting
  · exact h.signal
  · intro hrunning
    have hrunning : w.forwarding = true := hrunning
    obtain ⟨hreceived, hdrained⟩ := h.running hrunning
    exact ⟨by simp [Link.receive, hrunning, hreceived, forwarded, taken], hsame.mpr hdrained⟩
  · intro hended
    obtain ⟨hfront, hover, hiff⟩ := h.ended hended
    have hstopped : w.writing = false := hover.resolve_left (by simp [hreading])
    refine ⟨hfront.trans (List.prefix_append _ _), Or.inr hstopped, hsame.trans ?_⟩
    simpa [Link.receive, hstopped, forwarded, taken] using hiff
  · exact h.left
  · exact h.early

/-- The link has closed, or a write has failed. -/
theorem Ordered.over (h : Ordered l w) {reading writing : Bool} (hover : reading = false ∨ writing = false) :
    Ordered (l ++ [(w, { w with reading := reading, writing := writing })])
      { w with reading := reading, writing := writing } := by
  have hsame : Drained (l ++ [(w, { w with reading := reading, writing := writing })]) ↔ Drained l :=
    drained_snoc_of_same rfl
  constructor
  · exact h.owed
  · intro hreading hwriting
    rcases hover with hover | hover
    · exact absurd (hreading.symm.trans hover) (by decide)
    · exact absurd (hwriting.symm.trans hover) (by decide)
  · exact fun _ => hover
  · exact fun hrunning => ⟨(h.running hrunning).1, hsame.mpr (h.running hrunning).2⟩
  · exact fun hended => ⟨(h.ended hended).1, hover, hsame.trans (h.ended hended).2.2⟩
  · exact h.left
  · exact h.early

/-- The forwarding task ends, and what is left on the receive channel is gone. -/
theorem Ordered.ends (h : Ordered l w) (hrunning : w.forwarding = true)
    (hover : w.reading = false ∨ w.writing = false) :
    Ordered (l ++ [(w, { w with forwarding := false, recvRx := [] })])
      { w with forwarding := false, recvRx := [] } := by
  obtain ⟨hreceived, hdrained⟩ := h.running hrunning
  have hlength : w.received.length = w.forwarded.length + w.recvRx.length := by rw [hreceived, List.length_append]
  constructor
  · exact h.owed
  · exact h.whole
  · exact h.signal
  · exact fun hfalse => Bool.noConfusion hfalse
  · intro _
    refine ⟨?_, hover, ?_⟩
    · exact ⟨w.recvRx, hreceived.symm⟩
    · rw [drained_snoc, and_iff_right hdrained]
      constructor
      · intro hspares
        have hspares : w.owed.length + w.recvRx.length ≤ w.received.length := hspares hrunning rfl
        exact Nat.le_of_add_le_add_right (hlength ▸ hspares)
      · intro hle _ _
        have hle : w.owed.length ≤ w.forwarded.length := hle
        unfold Spares
        omega
  · exact fun hleft => ⟨(h.left hleft).1, rfl⟩
  · exact h.early

theorem Ordered.step (h : Ordered l w) (hs : Step w w') : Ordered (l ++ [(w, w')]) w' := by
  cases hs with
  | receive frame hreading => exact h.receive frame hreading
  | close => exact h.over (Or.inl rfl)
  | failWrite => exact h.over (Or.inr rfl)
  | report hover => exact h.same rfl rfl rfl rfl (fun _ => hover) rfl rfl rfl h.left h.early
  | @forward frame rest hrunning hrecv =>
    obtain ⟨hreceived, hdrained⟩ := h.running hrunning
    constructor
    · exact h.owed
    · exact h.whole
    · exact h.signal
    · have hsame : Drained (l ++ [(w, { w with recvRx := rest, radioRecvRx := w.radioRecvRx ++ [frame] })]) ↔
        Drained l :=
        drained_snoc_of_same rfl
      refine fun _ => ⟨?_, hsame.mpr hdrained⟩
      show w.received = w.taken ++ (w.radioRecvRx ++ [frame]) ++ rest
      rw [hreceived, hrecv, forwarded]
      simp only [List.append_assoc, List.singleton_append]
    · exact fun hended => absurd (hrunning.symm.trans hended) (by decide)
    · exact fun hleft => absurd (hrunning.symm.trans (h.left hleft).2) (by decide)
    · exact h.early
  | finish hrunning hrecv hread =>
    have hend := h.ends hrunning (Or.inl hread)
    have hsame : ({ w with forwarding := false, recvRx := [] } : Link) = { w with forwarding := false } := by
      rw [← hrecv]
    rwa [hsame] at hend
  | cut hrunning hsignal => exact h.ends hrunning (h.signal hsignal)
  | @await frame rest hcore hrecv =>
    have hforwarded : w.awaited ++ [frame] ++ w.handled ++ rest = w.forwarded := by
      simp [forwarded, taken, h.early hcore, hrecv]
    refine h.same rfl rfl rfl rfl h.signal rfl rfl hforwarded (fun hleft => ?_) h.early
    exact absurd ((h.left hleft).1.symm.trans hrecv) (by simp)
  | loop hcore _ => exact h.same rfl rfl rfl rfl h.signal rfl rfl rfl h.left (fun hnone => nomatch hnone)
  | @handle frame rest _ _ _ _ hattached _ hrecv _ =>
    have hforwarded : w.awaited ++ (w.handled ++ [frame]) ++ rest = w.forwarded := by
      simp [forwarded, taken, hrecv]
    refine h.same rfl rfl rfl rfl h.signal rfl rfl hforwarded (fun hleft => ?_) (fun hnone => nomatch hnone)
    exact absurd (hattached.symm.trans hleft) (by decide)
  | lose _ _ hrecv hend _ =>
    exact h.same rfl rfl rfl rfl h.signal rfl rfl rfl (fun _ => ⟨hrecv, hend⟩) (fun hnone => nomatch hnone)
  | turn _ _ _ _ => exact h.same rfl rfl rfl rfl h.signal rfl rfl rfl h.left (fun hnone => nomatch hnone)

theorem Run.ordered (h : Run w₀ l w) (hstart : Ordered [] w₀) : Ordered l w := by
  induction h with
  | refl => exact hstart
  | step _ hs ih => exact ih.step hs

/-- Whatever the schedule, once the core sees the end of the stream it was given, in order, all that the reader had
    put on its channel before the link closed or a write failed, exactly if none of it was left there when the
    forwarding task ended. -/
theorem owed_handled (h : Run connected l w) (hleft : w.attached = false) : w.owed <+: w.taken ↔ Drained l := by
  have hordered : Ordered l w := h.ordered connected_ordered
  obtain ⟨hnothing, hended⟩ := hordered.left hleft
  obtain ⟨hfront, -, hiff⟩ := hordered.ended hended
  have htaken : w.forwarded = w.taken := by rw [forwarded, hnothing, List.append_nil]
  rw [htaken] at hfront hiff
  rw [hiff]
  exact ⟨List.IsPrefix.length_le, List.prefix_of_prefix_length_le hordered.owed hfront⟩

/-- A message of channel 0. -/
def message : Bytes := [0x11, 0, 0, 0, 0, 0, 0, 0, 0, 0, 0]

theorem booted_reachable {c : Core} (h : Core.booted .off = .ok c) : Core.Reachable c.out c :=
  ⟨_, _, _, _, _, c, [], trivial, fun _ _ => trivial, h, .refl c, (List.append_nil _).symm⟩

/-- The link closes after a message, and the forwarding task passes the message on first. -/
theorem owed_handled_forward : ∃ l w, Run connected l w ∧ w.attached = false ∧ w.owed = [message] ∧ Drained l ∧
    w.owed <+: w.taken := by
  have hrun : Except.Holds (do
      let c ← Core.booted .off
      let c₁ ← c.step [] (.radio Core.sound message)
      let c₂ ← c₁.step [] (.disconnected [])
      return (c, c₁, c₂)) fun _ => True := by
    decide +kernel
  obtain ⟨⟨c, c₁, c₂⟩, hrun, -⟩ := hrun
  obtain ⟨_, hboot, hrun⟩ := Except.of_bind_eq_ok hrun
  obtain ⟨_, hradio, hrun⟩ := Except.of_bind_eq_ok hrun
  obtain ⟨_, hlost, hrun⟩ := Except.of_bind_eq_ok hrun
  cases hrun
  have hlink := (((((((Run.refl connected).step (.loop rfl (booted_reachable hboot))).step (.receive message rfl)).step
    .close).step (.forward rfl rfl)).step (.finish rfl rfl rfl)).step (.handle rfl rfl rfl hradio)).step
    (.lose rfl rfl rfl rfl hlost)
  refine ⟨_, _, hlink, rfl, rfl, ?_, (owed_handled hlink rfl).mpr ?_⟩ <;> simp only [drained_snoc] <;>
    simp [drained_nil, Spares, receive, connected]

/-- The signal comes first, and the message is gone. -/
theorem owed_lost_cut : ∃ l w, Run connected l w ∧ w.attached = false ∧ w.owed = [message] ∧ w.taken = [] := by
  have hrun : Except.Holds (do
      let c ← Core.booted .off
      let c₁ ← c.step [] (.disconnected [])
      return (c, c₁)) fun _ => True := by
    decide +kernel
  obtain ⟨⟨c, c₁⟩, hrun, -⟩ := hrun
  obtain ⟨_, hboot, hrun⟩ := Except.of_bind_eq_ok hrun
  obtain ⟨_, hlost, hrun⟩ := Except.of_bind_eq_ok hrun
  cases hrun
  have hlink := ((((((Run.refl connected).step (.loop rfl (booted_reachable hboot))).step (.receive message rfl)).step
    .close).step (.report (Or.inl rfl))).step (.cut rfl rfl)).step (.lose rfl rfl rfl rfl hlost)
  exact ⟨_, _, hlink, rfl, rfl, rfl⟩

end
end Link
end CoreSplitter
