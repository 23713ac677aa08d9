import CoreSplitter.Theorems.Echoes

/-! The writer task of one client (`handle_client` in `frontend/tcp.rs`), between the core that puts frames on the
    client's two channels and its socket. -/

namespace CoreSplitter

/-- The channel that a frame takes to a client. -/
inductive Via
  | direct
  | broadcast
deriving DecidableEq, Repr

/-- What is put on the channels of `cid`. -/
def Effect.putFor (cid : ClientId) : Effect → Option (Via × Bytes)
  | .client cid' _ _ frame _ => if cid' = cid then some (.direct, frame) else none
  | .broadcast frame => some (.broadcast, frame)
  | _ => none

structure Writer where
  core : Core
  /-- What the core's turn has yet to put on the channels. -/
  putting : List Effect
  /-- The frames put on either channel since the client subscribed to the pushes. -/
  emitted : List (Via × Bytes)
  directRx : List Bytes
  /-- All pushes sent since then, of which the channel keeps the last, and the position of the one to read next. -/
  broadcastTx : List Bytes
  next : Nat
  /-- The frames written to the socket. -/
  written : List (Via × Bytes)

namespace Writer

/-- The capacity of `broadcast_tx`. -/
def capacity : Nat := 256

/-- A client has just subscribed, while a turn has yet to put `rest` on the channels. -/
def subscribed (c : Core) (rest : List Effect) : Writer where
  core := c
  putting := rest
  emitted := []
  directRx := []
  broadcastTx := []
  next := 0
  written := []

def put (w : Writer) (cid : ClientId) (e : Effect) : Writer :=
  match e.putFor cid with
  | some (.direct, frame) => { w with emitted := w.emitted ++ [(.direct, frame)], directRx := w.directRx ++ [frame] }
  | some (.broadcast, frame) =>
    { w with emitted := w.emitted ++ [(.broadcast, frame)], broadcastTx := w.broadcastTx ++ [frame] }
  | none => w

/-- The writer's `select!` takes either channel that has something for it. -/
inductive Step (cid : ClientId) : Writer → Writer → Prop
  | turn {w : Writer} {c : Core} {frontend : List (List FrontendOp)} {e : Core.Event} (hdone : w.putting = [])
      (h : w.core.step frontend e = .ok c) : Step cid w { w with core := c, putting := c.out }
  | put {w : Writer} {e : Effect} {rest : List Effect} (h : w.putting = e :: rest) :
      Step cid w ({ w with putting := rest }.put cid e)
  | writeDirect {w : Writer} {frame : Bytes} {rest : List Bytes} (h : w.directRx = frame :: rest) :
      Step cid w { w with directRx := rest, written := w.written ++ [(.direct, frame)] }
  | writeBroadcast {w : Writer} {frame : Bytes} (hkept : w.broadcastTx.length ≤ w.next + capacity)
      (h : w.broadcastTx[w.next]? = some frame) :
      Step cid w { w with next := w.next + 1, written := w.written ++ [(.broadcast, frame)] }
  /-- `Lagged`: what was overwritten is passed over. -/
  | lag {w : Writer} (h : w.next + capacity < w.broadcastTx.length) :
      Step cid w { w with next := w.broadcastTx.length - capacity }

/-- A schedule of the core and the writer whose states all satisfy `p`. -/
inductive Run (cid : ClientId) (p : Writer → Prop) : Writer → Writer → Prop
  | refl {w : Writer} (hp : p w) : Run cid p w w
  | step {w w₁ w₂ : Writer} : Run cid p w w₁ → Step cid w₁ w₂ → p w₂ → Run cid p w w₂

/-- The frames that took one of the channels. -/
def along (via : Via) (l : List (Via × Bytes)) : List Bytes := (l.filter (·.1 = via)).map (·.2)

/-- The pushes that the writer has not read. -/
def unread (w : Writer) : List Bytes := w.broadcastTx.drop w.next

/-- What waits on the channels. -/
def waiting (w : Writer) : List (Via × Bytes) :=
  w.directRx.map (fun frame => (.direct, frame)) ++ w.unread.map fun frame => (.broadcast, frame)

/-- The writer is not so far behind that pushes are overwritten. -/
def Keeps (w : Writer) : Prop := w.unread.length ≤ capacity

/-- One of the channels is empty. -/
def Calm (w : Writer) : Prop := w.directRx = [] ∨ w.unread = []

section
variable {w w' w₁ : Writer} {cid : ClientId} {p : Writer → Prop} {via : Via} {l l' : List (Via × Bytes)}
  {frame : Bytes}

@[simp] theorem along_nil : along via [] = [] := rfl

@[simp] theorem along_append : along via (l ++ l') = along via l ++ along via l' := by simp [along]

@[simp] theorem along_direct_direct : along .direct [(.direct, frame)] = [frame] := rfl
@[simp] theorem along_direct_broadcast : along .direct [(.broadcast, frame)] = [] := rfl
@[simp] theorem along_broadcast_direct : along .broadcast [(.direct, frame)] = [] := rfl
@[simp] theorem along_broadcast_broadcast : along .broadcast [(.broadcast, frame)] = [frame] := rfl

theorem Run.last (h : Run cid p w w') : p w' := by
  cases h with
  | refl hp => exact hp
  | step _ _ hp => exact hp

theorem put_cases (w : Writer) (cid : ClientId) (e : Effect) :
    (∃ frame, w.put cid e =
      { w with emitted := w.emitted ++ [(.direct, frame)], directRx := w.directRx ++ [frame] }) ∨
    (∃ frame, w.put cid e =
      { w with emitted := w.emitted ++ [(.broadcast, frame)], broadcastTx := w.broadcastTx ++ [frame] }) ∨
    w.put cid e = w := by
  unfold put
  split
  · exact Or.inl ⟨_, rfl⟩
  · exact Or.inr (Or.inl ⟨_, rfl⟩)
  · exact Or.inr (Or.inr rfl)

/-! ### Any schedule -/

/-- Each channel is written in order, the direct one without a gap. -/
structure Ordered (w : Writer) : Prop where
  direct : along .direct w.written ++ w.directRx = along .direct w.emitted
  broadcast : along .broadcast w.emitted = w.broadcastTx
  next : w.next ≤ w.broadcastTx.length
  read : List.Sublist (along .broadcast w.written) (w.broadcastTx.take w.next)

theorem subscribed_ordered (c : Core) (rest : List Effect) : (subscribed c rest).Ordered where
  direct := rfl
  broadcast := rfl
  next := Nat.le_refl 0
  read := List.nil_sublist _

theorem Ordered.put (h : w.Ordered) (cid : ClientId) (e : Effect) : (w.put cid e).Ordered := by
  rcases w.put_cases cid e with ⟨frame, hput⟩ | ⟨frame, hput⟩ | hput <;> rw [hput]
  · refine ⟨?_, ?_, h.next, h.read⟩
    · simp [← h.direct]
    · simpa using h.broadcast
  · refine ⟨?_, ?_, ?_, ?_⟩
    · simpa using h.direct
    · simp [h.broadcast]
    · simpa using Nat.le_succ_of_le h.next
    · simpa [List.take_append_of_le_length h.next] using h.read
  · exact h

theorem Ordered.step (h : w.Ordered) (hs : Step cid w w') : w'.Ordered := by
  cases hs with
  | turn _ _ => exact ⟨h.direct, h.broadcast, h.next, h.read⟩
  | @put e rest _ => exact Ordered.put (w := { w with putting := rest }) ⟨h.direct, h.broadcast, h.next, h.read⟩ cid e
  | writeDirect hrecv =>
    refine ⟨?_, h.broadcast, h.next, ?_⟩
    · simpa [hrecv] using h.direct
    · simpa using h.read
  | writeBroadcast _ hnext =>
    obtain ⟨hlt, hframe⟩ := List.getElem?_eq_some_iff.mp hnext
    refine ⟨?_, h.broadcast, hlt, ?_⟩
    · simpa using h.direct
    · have htake : w.broadcastTx.take (w.next + 1) = w.broadcastTx.take w.next ++ [w.broadcastTx[w.next]] :=
        (List.take_append_getElem hlt).symm
      simpa [htake, hframe] using h.read
  | lag hbehind =>
    refine ⟨h.direct, h.broadcast, Nat.sub_le _ _, h.read.trans ?_⟩
    exact List.take_sublist_take_left (show w.next ≤ w.broadcastTx.length - capacity by omega)

/-! ### A writer that keeps up -/

theorem keeps_step (hread : along .broadcast w.written = w.broadcastTx.take w.next) (h : w.Ordered) (hkeeps : w.Keeps)
    (hs : Step cid w w') : along .broadcast w'.written = w'.broadcastTx.take w'.next := by
  cases hs with
  | turn _ _ => exact hread
  | @put e rest _ =>
    rcases put_cases { w with putting := rest } cid e with ⟨frame, hput⟩ | ⟨frame, hput⟩ | hput <;> rw [hput]
    · exact hread
    · simpa [List.take_append_of_le_length h.next] using hread
    · exact hread
  | writeDirect _ => simpa using hread
  | writeBroadcast _ hnext =>
    obtain ⟨hlt, hframe⟩ := List.getElem?_eq_some_iff.mp hnext
    have htake : w.broadcastTx.take (w.next + 1) = w.broadcastTx.take w.next ++ [w.broadcastTx[w.next]] :=
      (List.take_append_getElem hlt).symm
    simp [htake, hframe, hread]
  | lag hbehind =>
    have hlength : w.broadcastTx.length - w.next ≤ capacity := by simpa [Keeps, unread] using hkeeps
    exact absurd hlength (by omega)

/-- Where one of the channels is always empty the frames stay as they were emitted. -/
theorem calm_step (hread : w.written ++ w.waiting = w.emitted) (h : w.Ordered) (hkeeps : w.Keeps) (hcalm : w.Calm)
    (hs : Step cid w w') (hcalm' : w'.Calm) : w'.written ++ w'.waiting = w'.emitted := by
  cases hs with
  | turn _ _ => exact hread
  | @put e rest _ =>
    rcases put_cases { w with putting := rest } cid e with ⟨frame, hput⟩ | ⟨frame, hput⟩ | hput <;>
      rw [hput] at hcalm' ⊢
    · have hunread : w.unread = [] := hcalm'.resolve_left (by simp)
      have hunread' : w.broadcastTx.drop w.next = [] := hunread
      simp only [waiting, unread, hunread', List.map_nil, List.append_nil] at hread ⊢
      simp [← hread]
    · have hdrop : (w.broadcastTx ++ [frame]).drop w.next = w.unread ++ [frame] := List.drop_append_of_le_length h.next
      have hdirect : w.directRx = [] := hcalm'.resolve_right (by simp [unread, hdrop])
      simp only [waiting, hdirect, List.map_nil, List.nil_append] at hread ⊢
      rw [unread, hdrop, ← hread]
      simp
    · exact hread
  | writeDirect hrecv =>
    rw [← hread]
    simp [waiting, hrecv, unread]
  | @writeBroadcast frame _ hnext =>
    obtain ⟨hlt, hframe⟩ := List.getElem?_eq_some_iff.mp hnext
    have hunread : w.unread = frame :: w.broadcastTx.drop (w.next + 1) := by
      rw [unread, List.drop_eq_getElem_cons hlt, hframe]
    have hdirect : w.directRx = [] := hcalm.resolve_right (by simp [hunread])
    rw [← hread, waiting, hunread]
    simp [waiting, hdirect, unread]
  | lag hbehind =>
    have hlength : w.broadcastTx.length - w.next ≤ capacity := by simpa [Keeps, unread] using hkeeps
    exact absurd hlength (by omega)

theorem Run.ordered (hrun : Run cid p w w') (h : w.Ordered) : w'.Ordered := by
  induction hrun with
  | refl _ => exact h
  | step _ hs _ ih => exact ih.step hs

theorem Run.keeps (hrun : Run cid p w w') (h : w.Ordered) (hkeeps : ∀ v, p v → v.Keeps)
    (hread : along .broadcast w.written = w.broadcastTx.take w.next) :
    along .broadcast w'.written = w'.broadcastTx.take w'.next := by
  induction hrun with
  | refl _ => exact hread
  | step hrun hs _ ih => exact keeps_step ih (hrun.ordered h) (hkeeps _ hrun.last) hs

theorem Run.calm (hrun : Run cid p w w') (h : w.Ordered) (hkeeps : ∀ v, p v → v.Keeps) (hcalm : ∀ v, p v → v.Calm)
    (hread : w.written ++ w.waiting = w.emitted) : w'.written ++ w'.waiting = w'.emitted := by
  induction hrun with
  | refl _ => exact hread
  | step hrun hs hp ih =>
    exact calm_step ih (hrun.ordered h) (hkeeps _ hrun.last) (hcalm _ hrun.last) hs (hcalm _ hp)

/-- What the core emits for a client is written in order and without a gap as far as the direct channel goes. Of the
    pushes none is written twice or out of order, and none is missing if the writer keeps up. If besides one of the
    channels is always empty, the two are not mixed up either. -/
theorem written_in_order {c : Core} {rest : List Effect} (hrun : Run cid p (subscribed c rest) w) :
    along .direct w.written ++ w.directRx = along .direct w.emitted ∧
    List.Sublist (along .broadcast w.written) (along .broadcast w.emitted) ∧
    ((∀ v, p v → v.Keeps) → along .broadcast w.written ++ w.unread = along .broadcast w.emitted) ∧
    ((∀ v, p v → v.Keeps ∧ v.Calm) → w.written ++ w.waiting = w.emitted) := by
  have hstart : (subscribed c rest).Ordered := subscribed_ordered c rest
  have hordered : w.Ordered := hrun.ordered hstart
  refine ⟨hordered.direct, ?_, fun hkeeps => ?_, fun hcalm => ?_⟩
  · rw [hordered.broadcast]
    exact hordered.read.trans (List.take_sublist _ _)
  · rw [hordered.broadcast, hrun.keeps hstart hkeeps rfl, unread, List.take_append_drop]
  · exact hrun.calm hstart (fun v hv => (hcalm v hv).1) (fun v hv => (hcalm v hv).2) rfl

/-! ### Two channels in use -/

/-- The frames `l` are put on their channels, and what emitted them has yet to put `rest`. -/
def took (w : Writer) (l : List (Via × Bytes)) (rest : List Effect) : Writer := { w with
  putting := rest
  emitted := w.emitted ++ l
  directRx := w.directRx ++ along .direct l
  broadcastTx := w.broadcastTx ++ along .broadcast l }

theorem took_put {e : Effect} {rest : List Effect} :
    (w.took l rest).put cid e = w.took (l ++ (e.putFor cid).toList) rest := by
  rcases hfor : e.putFor cid with _ | ⟨via, frame⟩
  · simp [put, hfor]
  · cases via <;> simp [put, took, hfor]

/-- All that is left to put is put on the channels before the writer goes on. -/
theorem Run.puts {es : List Effect} (h : Run cid p w (w₁.took l es))
    (hp : ∀ l' rest, l' <+: es.filterMap (Effect.putFor cid) → p (w₁.took (l ++ l') rest)) :
    Run cid p w (w₁.took (l ++ es.filterMap (Effect.putFor cid)) []) := by
  induction es generalizing l with
  | nil => simpa using h
  | cons e rest ih =>
    have hfirst :
        (e :: rest).filterMap (Effect.putFor cid) = (e.putFor cid).toList ++ rest.filterMap (Effect.putFor cid) := by
      cases hfor : e.putFor cid <;> simp [hfor]
    rw [hfirst] at hp ⊢
    have hput : Run cid p w (w₁.took (l ++ (e.putFor cid).toList) rest) := by
      have hstep : Step cid (w₁.took l (e :: rest)) ((w₁.took l rest).put cid e) := .put rfl
      rw [took_put] at hstep
      exact h.step hstep (hp _ rest (List.prefix_append _ _))
    rw [← List.append_assoc]
    refine ih hput fun l' rest' hl => ?_
    rw [List.append_assoc]
    exact hp _ rest' ((List.prefix_append_right_inj _).mpr hl)

/-- A turn with one frame for the client, which is put on its channel among all that the turn emitted. -/
theorem Run.hands {c : Core} {frontend : List (List FrontendOp)} {e : Core.Event} (h : Run cid p w w₁)
    (hdone : w₁.putting = []) (hstep : w₁.core.step frontend e = .ok c)
    (hes : c.out.filterMap (Effect.putFor cid) = [(via, frame)])
    (hbefore : ∀ rest, p (took { w₁ with core := c } [] rest))
    (hafter : ∀ rest, p (took { w₁ with core := c } [(via, frame)] rest)) :
    Run cid p w (took { w₁ with core := c } [(via, frame)] []) := by
  have hturn : Step cid w₁ (took { w₁ with core := c } [] c.out) := by simpa [took] using Step.turn hdone hstep
  rw [← hes]
  refine (h.step hturn (hbefore c.out)).puts fun l rest hl => ?_
  rw [hes] at hl
  rcases List.prefix_cons_iff.mp hl with rfl | ⟨l, rfl, hnil⟩
  · exact hbefore rest
  · rw [List.prefix_nil.mp hnil]
    exact hafter rest

/-- A proxy that was started with a radio of one channel. -/
def oneChannel : Except Panic Core := (Core.new ⟨.off, true, false, ⟨0, 0, 0, 0⟩, .off⟩ .empty).start Core.sound
  ⟨true, [.frame [0x05], .frame [0x0D, 3, 0, 1]], Core.sound, Core.sound, Core.sound⟩ []

/-- The radio has no contacts and refuses to give its channel. Then client 1 sends a message. -/
def busy : List Core.Turn :=
  [([], .radio Core.sound [0x04, 0, 0, 0, 0]), ([], .radio Core.sound [0x01, 2]),
    ([[.connect]], .command Core.sound ⟨1, 5000, [0x02, 0, 0, 0, 0, 0, 0, 1, 2, 3, 4, 5, 6, 0x61]⟩)]

def sent : Bytes := [0x06, 0, 7, 7, 7, 7, 0, 0, 0, 0]

/-- The ACK of that message. -/
def acked : Bytes := [0x82, 7, 7, 7, 7, 0, 0, 0, 0]

theorem written_in_order_push_run : Except.Holds (do
    let c₀ ← oneChannel
    let (l, c) ← c₀.laps busy
    let c₁ ← c.step [] (.radio Core.sound sent)
    let c₂ ← c₁.step [] (.radio Core.sound [0x83])
    let c₃ ← c₂.step [] (.radio Core.sound [0x80, 5])
    let c₄ ← c₃.step [] (.radio Core.sound acked)
    return (c₀, l, c, c₁, c₂, c₃, c₄)) fun (_, _, _, c₁, c₂, c₃, c₄) =>
      (c₁.out.filterMap (Effect.putFor 1) = [(.direct, sent)] ∧
        c₂.out.filterMap (Effect.putFor 1) = [(.broadcast, [0x83])]) ∧
      c₃.out.filterMap (Effect.putFor 1) = [(.broadcast, [0x80, 5])] ∧
      c₄.out.filterMap (Effect.putFor 1) = [(.direct, acked)] := by
  decide +kernel

/-- A reply, two pushes that wait together, and an ACK are written in the order in which they were emitted. -/
theorem written_in_order_push : ∃ c w, Run 1 (fun v => v.Keeps ∧ v.Calm) (subscribed c []) w ∧
    w.written = [(.direct, sent), (.broadcast, [0x83]), (.broadcast, [0x80, 5]), (.direct, acked)] ∧
    w.written ++ w.waiting = w.emitted := by
  obtain ⟨⟨c₀, l, c, c₁, c₂, c₃, c₄⟩, hrun, ⟨hsent, hpush⟩, hpush', hacked⟩ := written_in_order_push_run
  obtain ⟨_, -, hrun⟩ := Except.of_bind_eq_ok hrun
  obtain ⟨⟨_, _⟩, -, hrun⟩ := Except.of_bind_eq_ok hrun
  obtain ⟨_, hstep₁, hrun⟩ := Except.of_bind_eq_ok hrun
  obtain ⟨_, hstep₂, hrun⟩ := Except.of_bind_eq_ok hrun
  obtain ⟨_, hstep₃, hrun⟩ := Except.of_bind_eq_ok hrun
  obtain ⟨_, hstep₄, hrun⟩ := Except.of_bind_eq_ok hrun
  cases hrun
  have hread {v : Writer} (h : v.unread = []) : v.Keeps ∧ v.Calm := ⟨by simp [Keeps, h], Or.inr h⟩
  have hwait {v : Writer} (frames : List Bytes) (hlen : frames.length ≤ capacity) (h : v.directRx = [])
      (hunread : v.unread = frames) : v.Keeps ∧ v.Calm := ⟨by rwa [Keeps, hunread], Or.inl h⟩
  have hstart : Run 1 (fun v => v.Keeps ∧ v.Calm) (subscribed c []) _ := .refl (hread rfl)
  have hreply := (hstart.hands rfl hstep₁ hsent (fun _ => hread rfl) fun _ => hread rfl).step
    (.writeDirect rfl) (hread rfl)
  have hfirst := hreply.hands rfl hstep₂ hpush (fun _ => hread rfl) fun _ => hwait [[0x83]] (by decide) rfl rfl
  have hboth := hfirst.hands rfl hstep₃ hpush' (fun _ => hwait [[0x83]] (by decide) rfl rfl)
    fun _ => hwait [[0x83], [0x80, 5]] (by decide) rfl rfl
  have hpushes :=
    (hboth.step (.writeBroadcast (show 2 ≤ 256 by decide) rfl) (hwait [[0x80, 5]] (by decide) rfl rfl)).step
    (.writeBroadcast (show 2 ≤ 257 by decide) rfl) (hread rfl)
  have hall := (hpushes.hands rfl hstep₄ hacked (fun _ => hread rfl) fun _ => hread rfl).step
    (.writeDirect rfl) (hread rfl)
  exact ⟨c, _, hall, rfl, (written_in_order hall).2.2.2 fun _ hv => hv⟩

theorem push_overtakes_run : Except.Holds (do
    let c₀ ← oneChannel
    let (l, c) ← c₀.laps busy
    let c₁ ← c.step [] (.radio Core.sound sent)
    let c₂ ← c₁.step [] (.radio Core.sound [0x83])
    return (c₀, l, c, c₁, c₂)) fun (_, _, c, c₁, c₂) => c.clients.channels.contains 1 = true ∧
      c₁.out.filterMap (Effect.putFor 1) = [(.direct, sent)] ∧
      c₂.out.filterMap (Effect.putFor 1) = [(.broadcast, [0x83])] := by
  decide +kernel

/-- The SENT of a message is emitted before the push that the radio sent after it, and written after it. -/
theorem push_overtakes : ∃ h c w, Core.Reachable h c ∧ c.clients.channels.contains 1 = true ∧
    Run 1 (fun _ => True) (subscribed c []) w ∧ w.emitted = [(.direct, sent), (.broadcast, [0x83])] ∧
    w.written = [(.broadcast, [0x83]), (.direct, sent)] := by
  obtain ⟨⟨c₀, l, c, c₁, c₂⟩, hrun, hclient, hsent, hpush⟩ := push_overtakes_run
  obtain ⟨_, hstart, hrun⟩ := Except.of_bind_eq_ok hrun
  obtain ⟨⟨_, _⟩, hlaps, hrun⟩ := Except.of_bind_eq_ok hrun
  obtain ⟨_, hstep, hrun⟩ := Except.of_bind_eq_ok hrun
  obtain ⟨_, hstep', hrun⟩ := Except.of_bind_eq_ok hrun
  cases hrun
  have hreply : Run 1 (fun _ => True) (subscribed c []) _ :=
    (Run.refl trivial).hands rfl hstep hsent (fun _ => trivial) fun _ => trivial
  have hboth := hreply.hands rfl hstep' hpush (fun _ => trivial) fun _ => trivial
  have hwritten := (hboth.step (.writeBroadcast (show 1 ≤ 256 by decide) rfl) trivial).step (.writeDirect rfl) trivial
  exact ⟨_, c, _, (Core.Trace.of_laps hlaps).1.reachable hstart, hclient, hwritten, rfl, rfl⟩

end
end Writer
end CoreSplitter
