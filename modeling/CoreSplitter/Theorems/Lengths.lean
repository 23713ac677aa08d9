import CoreSplitter.Protocol.Frame
import CoreSplitter.Theorems.Layout
import CoreSplitter.Theorems.Fanout

/-! Whether what goes to clients still fits the length of a frame, after the layouts and echoes that lengthen it. -/

namespace CoreSplitter
open Bytes

/-! ### Lengths -/

/-- The length of a payload fits the header of its frame. -/
def Framed (payload : Bytes) : Prop := payload.length < 65536

/-- Only the messages without SNR and reserved bytes get longer. -/
theorem messageFrameFor_length_of_plain {version : UInt8} {frame : Bytes}
    (h : frame.head? ≠ some 0x07 ∧ frame.head? ≠ some 0x08) :
    (messageFrameFor version frame).length ≤ frame.length := by
  unfold messageFrameFor
  split
  · simp
  · split
    · simp
    · split
      · rename_i hpad
        rcases hpad.1 with rfl | rfl
        · exact absurd rfl h.1
        · exact absurd rfl h.2
      · exact Nat.le_refl _

/-- Whatever its layout, a frame gets longer by three bytes at most. -/
theorem framed_of_short {version : UInt8} {frame : Bytes} (h : frame.length < 65533) :
    Framed (messageFrameFor version frame) := by
  unfold messageFrameFor Framed
  split
  · simp
  · rename_i code rest
    simp only [List.length_cons] at h
    split
    · simp only [List.length_cons, List.length_drop]
      omega
    · split <;> simp only [List.length_cons] <;> omega

/-- A payload that fits in every layout. -/
structure Portable (payload : Bytes) : Prop where
  framed : Framed payload
  plain : payload.head? ≠ some 0x07 ∧ payload.head? ≠ some 0x08

theorem Portable.laidOut {payload : Bytes} (h : Portable payload) {version : UInt8} :
    Framed (messageFrameFor version payload) :=
  Nat.lt_of_le_of_lt (messageFrameFor_length_of_plain h.plain) h.framed

theorem portable_of_code {payload : Bytes} {code : UInt8} (hframed : Framed payload) (hcode : payload.head? = some code)
    (hplain : code ≠ 0x07 ∧ code ≠ 0x08) : Portable payload := by
  refine ⟨hframed, ?_⟩
  rw [hcode]
  simpa using hplain

theorem Core.IsRow.portable {frame : Bytes} (h : IsRow frame) : Portable frame := by
  have hframed : Framed frame := Nat.lt_of_le_of_lt h.len (by decide)
  rcases h.code with hcode | hcode | hcode | hcode <;> exact portable_of_code hframed hcode ⟨by decide, by decide⟩

/-- A frame that goes to clients reads back as the one frame it is. -/
def Effect.Decodes : Effect → Prop
  | .client _ _ _ frame _ | .broadcast frame => FrameParser.new.feed (encodeResponse frame) = ([frame], .new)
  | _ => True

/-- The blobs that the database keeps fit in every layout. -/
def NodeState.Portable (db : NodeState) : Prop :=
  ∀ key blob, key ≠ .contactsSyncedAt → db.kvGet key = some blob → CoreSplitter.Portable blob

theorem NodeState.Portable.empty : NodeState.empty.Portable := nofun

namespace Core

/-! ### Turns -/

/-- What the radio sends came out of a frame. -/
def Event.Framed : Event → Prop
  | .radio _ frame => CoreSplitter.Framed frame
  | .disconnected attempts => ∀ a ∈ attempts, ∀ p, .frame p ∈ a.recv → CoreSplitter.Framed p
  | _ => True

/-- Nothing that a turn sends on gets too long for its receiver: a message that was missed, a reply or a message
    polled by another, in the layout for the client; or the echo of a message that the radio accepts. -/
def Event.Fits (v : ClientId → UInt8) (c : Core) : Event → Prop
  | .command env cmd => cmd.payload.head? = some 0x0A → c.clients.Meets cmd.clientId → ∀ id frame,
      c.nextMissed env cmd.clientId = some (id, frame) → CoreSplitter.Framed (messageFrameFor (v cmd.clientId) frame)
  | .radio _ frame => ∀ f code, c.inFlight = some f → frame.head? = some code → ∀ cid, c.clients.Meets cid →
      ((f.awaiting.classify code).1 = true → f.clientId = some cid ∨ f.cmdCode = 0x0A ∧ Scope.fansOut code →
        CoreSplitter.Framed (messageFrameFor (v cid) frame)) ∧
      (f.awaiting.classify code = (true, true) → code ≠ 0x01 → f.clientId.isSome → f.clientId ≠ some cid →
        ∀ echo, c.EchoOf f echo → CoreSplitter.Framed (messageFrameFor (v cid) echo.frame))
  | _ => True

section
variable {S : Scope} {v : ClientId → UInt8} {P : Audience} {c c₁ : Core} {frontend : List (List FrontendOp)} {e : Event}

theorem supplies_portable (hframe : ∀ frame, S.frame frame → Framed frame) : Supplies S (fun _ => True) Portable where
  message _ _ _ _ _ := trivial
  blob frame code h hcode hblob :=
    portable_of_code (hframe frame h) hcode (by rcases hblob with rfl | rfl | rfl <;> decide)
  echo _ _ _ _ _ := trivial

theorem EchoOf.of_naming {f : InFlight} {echo : NewMessage} (h : c₁.EchoOf f echo) (hnaming : c₁.naming = c.naming) :
    c.EchoOf f echo := by
  simp only [naming, Prod.mk.injEq] at hnaming
  obtain ⟨hkey, hname⟩ := hnaming
  cases h with
  | contact hpk hcode hlen => exact .contact (hkey ▸ hpk) hcode hlen
  | channel hpk hcode hlen =>
    rw [hname]
    exact .channel (hkey ▸ hpk) hcode hlen

/-- The frame that completes a SEND is no SELF_INFO. -/
theorem classify_send {p : Command} (hcode : p.code = 0x02 ∨ p.code = 0x03) :
    (awaitingFor p).classify 0x05 = (false, true) := by
  rcases hcode with hcode | hcode <;> simp [awaitingFor, hcode, Awaiting.classify]

/-- A turn that accepts a SEND leaves what its echo is made with. -/
theorem scope_naming (hawaiting : ∀ f, c.inFlight = some f → f.awaiting = awaitingFor f.payload) {f : InFlight}
    (h : (e.scope c).Accepts f) (hsend : f.cmdCode = 0x02 ∨ f.cmdCode = 0x03) {c₂ c₃ : Core}
    (hw : Write (e.scope c) c₂ c₃) : c₃.naming = c₂.naming := by
  cases e with
  | radio env frame =>
    obtain ⟨hdone, frame', code, rfl, hcode, hends, -⟩ := h
    rw [hawaiting f hdone] at hends
    refine hw.naming ?_ ?_ id
    · rintro _ rfl hself
      obtain rfl : code = 0x05 := Option.some.inj (hcode.symm.trans hself)
      rw [classify_send hsend] at hends
      cases hends
    · intro f' h' hname
      have hdone' : c.inFlight = some f' := h'.done
      obtain rfl : f = f' := Option.some.inj (hdone.symm.trans hdone')
      rcases hsend with h | h <;> rw [h] at hname <;> cases hname
  | command | timeoutTick | maintenanceTick | disconnected | idle => exact h.done.elim

/-- Every source of a turn that fits is short enough for its client. -/
theorem Source.fits {c₂ : Core} {cid : ClientId} {why : Why} {payload : Bytes}
    (h : Source (e.scope c) c₂ cid why payload) (hframed : e.Framed) (hfits : e.Fits v c) (hmet : c.clients.Meets cid)
    (hholds : Holds (fun _ => True) Portable c₂)
    (hnaming : ∀ f, (e.scope c).Accepts f → f.cmdCode = 0x02 ∨ f.cmdCode = 0x03 → c₂.naming = c.naming) :
    Framed (messageFrameFor (v cid) payload) := by
  cases h with
  | reply h hclient =>
    cases e with
    | radio env frame =>
      obtain ⟨hdone, rfl, code, hcode, hbelongs⟩ := h
      exact (hfits _ code hdone hcode cid hmet).1 hbelongs (Or.inl hclient)
    | command | timeoutTick | maintenanceTick | disconnected | idle => exact h.done.elim
  | fanout h hclient hpoll hcode hmessage =>
    cases e with
    | radio env frame =>
      obtain ⟨hdone, rfl, code, hcode', hbelongs⟩ := h
      obtain rfl := Option.some.inj (hcode'.symm.trans hcode)
      exact (hfits _ code hdone hcode cid hmet).1 hbelongs (Or.inr ⟨hpoll, hmessage⟩)
    | command | timeoutTick | maintenanceTick | disconnected | idle => exact h.done.elim
  | ack h hcode =>
    cases e with
    | radio env frame => exact (portable_of_code (h ▸ hframed) hcode ⟨by decide, by decide⟩).laidOut
    | disconnected attempts => rcases h.2 with h | h <;> rw [h] at hcode <;> cases hcode
    | command | timeoutTick | maintenanceTick | idle => exact h.elim
  | error | notify =>
    refine Portable.laidOut (portable_of_code ?_ rfl ⟨by decide, by decide⟩)
    simp [Framed]
  | replay henv hcmd hpoll hclient hnext hmissed =>
    cases e with
    | command env cmd =>
      obtain rfl := hcmd
      obtain rfl := hclient
      exact hfits hpoll hmet _ _ hmissed
    | radio | timeoutTick | maintenanceTick | disconnected | idle => exact hcmd.elim
  | blob _ _ _ h => exact (hholds.blobs payload h.isBlob).laidOut
  | row _ _ _ _ h => exact h.portable.laidOut
  | echo h hclient hne hecho =>
    cases e with
    | radio env frame =>
      have hsame := hnaming _ h hecho.sends
      obtain ⟨hdone, frame', code, rfl, hcode, hends, hok⟩ := h
      have hother : some _ ≠ some cid := fun heq => hne (Option.some.inj heq)
      exact (hfits _ code hdone hcode cid hmet).2 hends hok (hclient ▸ rfl) (hclient ▸ hother) _ (hecho.of_naming hsame)
    | command | timeoutTick | maintenanceTick | disconnected | idle => exact h.done.elim

theorem Tells.decodes {S : Scope} {met : ClientId → Prop}
    (h : Tells v ⟨met, S.Emits⟩ (fun cid _ payload => Framed (messageFrameFor (v cid) payload)) c)
    (hscope : ∀ frame, S.frame frame → Framed frame) : ∀ x ∈ c.out, x.Decodes := by
  intro x hx
  have hspoken := h.out x hx
  cases x with
  | client cid who version frame why =>
    obtain ⟨rfl, -, payload, rfl, hlen⟩ := hspoken
    exact feed_encodeResponse_iff.mpr hlen
  | broadcast frame => exact feed_encodeResponse_iff.mpr (hscope frame (Scope.Emits.received hspoken))
  | _ => trivial

theorem step_decodes (h : c.step frontend e = .ok c₁) (ht : Told v P c)
    (hawaiting : ∀ f, c.inFlight = some f → f.awaiting = awaitingFor f.payload)
    (hholds : Holds (fun _ => True) Portable c) (hframed : e.Framed)
    (hfits : e.Fits (e.asked v (c.begin frontend)) (c.begin frontend)) :
    Holds (fun _ => True) Portable c₁ ∧ ∀ x ∈ c₁.out, x.Decodes := by
  have hscope (frame : Bytes) (hframe : (e.scope (c.begin frontend)).frame frame) : Framed frame := by
    cases e with
    | radio env payload => exact hframe ▸ hframed
    | disconnected attempts =>
      obtain ⟨a, ha, hp⟩ := hframe.1
      exact hframed a ha frame hp
    | command | timeoutTick | maintenanceTick | idle => exact hframe.elim
  obtain ⟨htells, hholds₁, -⟩ := step_tells
    (q := fun cid _ payload => Framed (messageFrameFor (e.asked v (c.begin frontend) cid) payload))
    (I := fun c₂ => Holds (fun _ => True) Portable c₂ ∧ ∀ f, (e.scope (c.begin frontend)).Accepts f →
      f.cmdCode = 0x02 ∨ f.cmdCode = 0x03 → c₂.naming = (c.begin frontend).naming)
    h ht ⟨hholds.begin, fun _ _ _ => rfl⟩
    (fun _ _ hw hI => ⟨hw.holds (supplies_portable hscope) hI.1, fun f hf hsend =>
      (scope_naming (c := c.begin frontend) hawaiting hf hsend hw).trans (hI.2 f hf hsend)⟩)
    fun _ hI _ _ _ hmet hsource => hsource.fits hframed hfits hmet hI.1 hI.2
  exact ⟨hholds₁, htells.decodes hscope⟩

/-! ### Runs -/

variable {config : Config} {db : NodeState} {env : Env} {first : Attempt} {attempts : List Attempt} {c₀ : Core}
  {h : List Effect}

theorem start_decodes (hdb : db.Portable) (hreceived : ∀ a ∈ first :: attempts, ∀ p, .frame p ∈ a.recv → Framed p)
    (hstart : (Core.new config db).start env first attempts = .ok c) :
    Told (fun _ => 0) .any c ∧ Holds (fun _ => True) Portable c ∧ ∀ x ∈ c.out, x.Decodes := by
  have hscope (frame : Bytes) (hframe : (startScope env (first :: attempts)).frame frame) : Framed frame := by
    obtain ⟨a, ha, hp⟩ := hframe.1
    exact hreceived a ha frame hp
  have hnew : Holds (fun _ => True) Portable (Core.new config db) :=
    ⟨fun _ _ _ _ => trivial, fun blob hblob => by simp [IsBlob, Core.new] at hblob, hdb⟩
  obtain ⟨htells, hholds⟩ : Tells (fun _ => 0) ⟨fun _ => True, (startScope env (first :: attempts)).Emits⟩
      (fun _ _ payload => Framed (messageFrameFor 0 payload)) c ∧ Holds (fun _ => True) Portable c := by
    refine start_tells hstart hnew (fun _ _ hw => hw.holds (supplies_portable hscope))
      fun c₂ hholds cid why payload hsource => ?_
    cases hsource with
    | reply h | fanout h | echo h => exact h.done.elim
    | ack h hcode => rcases h.2 with h | h <;> rw [h] at hcode <;> cases hcode
    | error t =>
      refine Portable.laidOut (portable_of_code ?_ rfl ⟨by decide, by decide⟩)
      simp [Framed]
    | notify h =>
      rcases h with ⟨_, h, -⟩ | ⟨_, h, -⟩
      · exact h.elim
      · exact h.done.elim
    | replay _ h | blob h | row h => exact h.elim
  exact ⟨htells.told.forget, hholds, htells.decodes hscope⟩

/-- While nothing that a turn sends on gets too long for its receiver, every frame for a client reads back as the one
    frame it is. -/
theorem run_decodes (hdb : db.Portable) (hreceived : ∀ a ∈ first :: attempts, ∀ p, .frame p ∈ a.recv → Framed p)
    (hstart : (Core.new config db).start env first attempts = .ok c₀)
    (hrun : AskingRun (fun v c frontend e => e.Framed ∧ e.Fits (e.asked v (c.begin frontend)) (c.begin frontend))
      (fun _ => 0) c₀ h v c) : (∀ x ∈ c₀.out ++ h, x.Decodes) ∧ c.db.Portable := by
  obtain ⟨ht, hholds, hdecodes⟩ := start_decodes hdb hreceived hstart
  have hall : (∀ x ∈ h, x.Decodes) ∧ Holds (fun _ => True) Portable c := by
    induction hrun with
    | refl => exact ⟨List.forall_mem_nil _, hholds⟩
    | @step v c c₁ h frontend e hrun hp hs ih =>
      obtain ⟨hdecoded, hholds⟩ := ih
      have hreach : Reachable (c₀.out ++ h) c :=
        ⟨config, db, env, first, attempts, c₀, h, trivial, fun _ _ => trivial, hstart, hrun.run, rfl⟩
      obtain ⟨ha, -⟩ : Accounted False (c₀.out ++ h) c ∧ (False → c.Idle) :=
        hreach.accounted False.elim fun _ _ _ => False.elim
      obtain ⟨hholds₁, hdecodes₁⟩ := step_decodes hs (hrun.told ht) ha.awaiting hholds hp.1 hp.2
      exact ⟨fun x hx => (List.mem_append.mp hx).elim (hdecoded x) (hdecodes₁ x), hholds₁⟩
  exact ⟨fun x hx => (List.mem_append.mp hx).elim (hdecodes x) (hall.1 x), hall.2.kv⟩

/-- Where all that is stored or received is short and no key of the radio is known, a turn sends on nothing too long. -/
theorem fits_of_short (hstored : ∀ m ∈ c.db.messages, ∀ frame ∈ m.frame, frame.length < 65533)
    (hreceived : ∀ env frame, e = .radio env frame → frame.length < 65533) (hkey : c.radioPubkey = none) :
    e.Fits v c := by
  cases e with
  | command env cmd =>
    intro _ _ id frame hnext
    obtain ⟨m, hm, hframe⟩ := nextMissed_stored hnext
    exact framed_of_short (hstored m hm frame hframe)
  | radio env frame =>
    intro f code _ _ cid _
    refine ⟨fun _ _ => framed_of_short (hreceived env frame rfl), fun _ _ _ _ echo hecho => ?_⟩
    cases hecho with
    | contact hpk | channel hpk => exact absurd (hkey ▸ hpk) nofun
  | timeoutTick | maintenanceTick | disconnected | idle => trivial

/-- Client 1 asks for version 3 and polls what it missed as `a`. Then client 2 polls the radio. -/
def delivering : List Turn :=
  [([[.connect, .connect]], queryOf 1 3), ([], startOf 1), ([], pollOf 1), ([], pollOf 2),
    ([], .radio sound shortMessage)]

theorem run_decodes_poll_run : Except.Holds (do
    let c₀ ← behind
    let (l, c₁) ← c₀.laps delivering
    return (c₀, l, c₁)) fun (_, l, _) =>
      (∀ s ∈ l, (∀ m ∈ s.before.db.messages, ∀ frame ∈ m.frame, frame.length < 65533) ∧ s.before.radioPubkey = none) ∧
      .client 1 (some (5000, [0x61])) 3 [0x10, 0, 0, 0] (.replay 1) ∈ history l ∧
      .client 2 none 0 [0x08, 0, 0, 0, 0, 0, 0, 0] (.reply 2) ∈ history l ∧
      .client 1 (some (5000, [0x61])) 3 shortMessage (.fanout 2) ∈ history l := by
  decide +kernel

/-- Client 1 has the message that it missed made longer, and gets the one that client 2 polls as it is. -/
theorem run_decodes_poll : ∃ c₀ h v c, behind = .ok c₀ ∧
    AskingRun (fun v c frontend e => e.Framed ∧ e.Fits (e.asked v (c.begin frontend)) (c.begin frontend))
      (fun _ => 0) c₀ h v c ∧
    (.client 1 (some (5000, [0x61])) 3 [0x10, 0, 0, 0] (.replay 1) ∈ h ∧
      .client 2 none 0 [0x08, 0, 0, 0, 0, 0, 0, 0] (.reply 2) ∈ h ∧
      .client 1 (some (5000, [0x61])) 3 shortMessage (.fanout 2) ∈ h) ∧
    ∀ x ∈ c₀.out ++ h, x.Decodes := by
  obtain ⟨⟨c₀, l, c₁⟩, hrun, hshort, hclients⟩ := run_decodes_poll_run
  obtain ⟨_, hboot, hrun⟩ := Except.of_bind_eq_ok hrun
  obtain ⟨⟨_, _⟩, hlaps, hrun⟩ := Except.of_bind_eq_ok hrun
  cases hrun
  obtain ⟨htrace, hturns⟩ := Trace.of_laps hlaps
  have hreceived : ∀ t ∈ delivering, t.2.Framed ∧ ∀ env frame, t.2 = .radio env frame → frame.length < 65533 := by
    simp [delivering, queryOf, startOf, pollOf, Event.Framed, Framed, shortMessage]
  have hempty : AskingRun (fun v c frontend e => e.Framed ∧ e.Fits (e.asked v (c.begin frontend)) (c.begin frontend))
      (fun _ => 0) c₀ [] (fun _ => 0) c₀ := .refl
  obtain ⟨v, hasking⟩ := hempty.trace htrace fun s hs v => by
    obtain ⟨hstored, hkey⟩ := hshort s hs
    obtain ⟨hframed, hlen⟩ := hreceived _ (hturns s hs)
    exact ⟨hframed, fits_of_short hstored hlen hkey⟩
  have hdb : unseen.Portable := fun _ _ _ hblob => absurd hblob (Option.some_ne_none _).symm
  exact ⟨c₀, _, _, c₁, hboot, hasking, hclients, (run_decodes hdb (by simp [Framed]) hboot hasking).1⟩

/-- A message of 65533 bytes goes to a client of version 3 with three more, and the header takes its length for 0. -/
theorem long_message_desynchronises : ∃ h c frame c₁ sent, Reachable h c ∧ Framed frame ∧
    c.step [] (.radio sound frame) = .ok c₁ ∧ sent ∈ framesTo 1 c₁.out ∧
    FrameParser.new.feed (encodeResponse sent) ≠ ([sent], .new) := by
  obtain ⟨h, c, f, hr, hslot, hclient, hpoll, hawaiting, hclients, hversion, hoff⟩ := polled_exists
  obtain ⟨rest, hrest⟩ : ∃ rest : Bytes, rest.length = 65532 := ⟨List.replicate 65532 0, List.length_replicate⟩
  have hends : f.awaiting.classify 0x07 = (true, true) := hawaiting ▸ classify_poll hpoll 0x07
  have hstays : (c.begin []).clients.Stays 1 := by
    have hmem : 1 ∈ c.clients.channels := by simp [hclients]
    exact ⟨hmem, List.forall_mem_nil _⟩
  obtain ⟨c₁, hs⟩ : Completes ((c.begin []).handleRadioRx sound (0x07 :: rest)) :=
    handleRadioRx_completes_iff.mpr fun h => h.1 hoff
  have hs : c.step [] (.radio sound (0x07 :: rest)) = .ok c₁ := hs
  have hcount := (count_poll hr.told hs hslot hpoll rfl hends (by decide) 1).2.1 hstays (Or.inl hclient)
  have hlen : (messageFrameFor (c.protocolVersion 1) (0x07 :: rest)).length = 65536 := by
    simp [messageFrameFor, hversion, hrest]
  refine ⟨h, c, _, c₁, _, hr, ?_, hs, List.count_pos_iff.mp (by rw [hcount]; decide), fun hfeed => ?_⟩
  · simp [Framed, hrest]
  · have hshort := feed_encodeResponse_iff.mp hfeed
    rw [hlen] at hshort
    exact Nat.lt_irrefl _ hshort

end
end Core
end CoreSplitter
