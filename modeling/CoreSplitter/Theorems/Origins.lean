import CoreSplitter.Theorems.Sessions

/-! Whose messages are replayed: a client's own are not. -/

namespace CoreSplitter
open Bytes

namespace NodeState
variable {db : NodeState} {m m' : MessageRow} {who : Identity}

theorem Ordered.eq_of_id (h : db.Ordered) (hm : m ∈ db.messages) (hm' : m' ∈ db.messages)
    (hid : m.id = m'.id) : m = m' :=
  List.inj_on_of_nodup_map (h.ascending.imp fun h => ne_of_lt h) hm hm' hid

/-- A message is not replayable to whom it came from. -/
theorem not_replayableTo (h : m.origin = some who) : replayableTo who m = false := by
  obtain ⟨port, app⟩ := who
  unfold MessageRow.origin at h
  split at h
  · rename_i hport happ
    cases h
    simp [replayableTo, hport, happ]
  · cases h

end NodeState

namespace Core

section
variable {c c₁ : Core} {env : Env} {who : Identity} {id : MessageId} {e : Event} {frontend : List (List FrontendOp)}
  {l l' : List Deed} {s : Lap} {f : InFlight} {cid : ClientId}

/-- The message was stored, and is such a one if it still is. -/
def Old (c : Core) (p : MessageRow → Prop) (id : MessageId) : Prop :=
  id ≤ c.db.messageSeq ∧ ∀ m ∈ c.db.messages, m.id = id → p m

/-- What is pending for a client is replayable to it. -/
structure Foreign (c : Core) : Prop where
  ordered : c.db.Ordered
  pending : ∀ cid s, c.sessions.lookup cid = some s →
    ∀ id ∈ s.pending, c.Old (NodeState.replayableTo s.identity · = true) id

theorem Old.deals {p : MessageRow → Prop} (h : c.Old p id) (hd : Deals c e c₁) : c₁.Old p id := by
  rcases hd.messages with ⟨hmessages, hseq⟩ | ⟨env, frame, msg, -, -, hmessages, hseq⟩
  · exact ⟨hseq ▸ h.1, fun m hm => h.2 m (hmessages.subset hm)⟩
  · rw [Old, hmessages, hseq]
    refine ⟨le_trans h.1 (Int.le_add_one (le_refl _)), fun m hm hid => ?_⟩
    rcases List.mem_append.mp hm with hm | hm
    · exact h.2 m hm hid
    · -- The message stored now has an id of its own.
      rw [List.mem_singleton.mp hm] at hid
      have hnew : c.db.messageSeq + 1 = id := hid
      exact absurd (hnew ▸ h.1) (not_le.mpr (Int.lt_succ _))

theorem missedBy_replayable (h : id ∈ c.missedBy env who) :
    ∃ m ∈ c.db.messages, m.id = id ∧ NodeState.replayableTo who m = true := by
  have hfilter (p : MessageRow → Bool) (hp : ∀ m, p m = true → NodeState.replayableTo who m = true)
      (hid : id ∈ (c.db.messages.filter p).map (·.id)) : ∃ m ∈ c.db.messages,
      m.id = id ∧ NodeState.replayableTo who m = true := by
    obtain ⟨m, hm, rfl⟩ := List.mem_map.mp hid
    exact ⟨m, (List.mem_filter.mp hm).1, rfl, hp m (List.mem_filter.mp hm).2⟩
  unfold missedBy at h
  split at h
  · cases h
  · split at h
    · cases h
    · split at h
      · exact hfilter _ (fun m hm => (Bool.and_eq_true _ _ ▸ hm).2) h
      · unfold NodeState.backlogMessageIds at h
        split at h
        · cases h
        · exact hfilter _ (fun _ h => h) (List.mem_of_mem_drop h)
        · exact hfilter _ (fun m hm => (Bool.and_eq_true _ _ ▸ hm).2) h

theorem Foreign.deals (h : Foreign c) (hd : Deals c e c₁) : Foreign c₁ := by
  have hordered : c₁.db.Ordered := by
    rcases hd.messages with ⟨hmessages, hseq⟩ | ⟨env, frame, msg, -, -, hmessages, hseq⟩
    · exact h.ordered.sublist hmessages hseq
    · have hnew : (c.db.insertMessage env.unix msg).Ordered := h.ordered.insert
      exact hnew.sublist (by rw [hmessages]; exact List.Sublist.refl _) hseq
  refine ⟨hordered, fun cid s' hs' id hid => Old.deals ?_ hd⟩
  rcases hd.sessions with hdrained | ⟨env, cmd, b, rfl, -, hb, hafter⟩
  · obtain ⟨s, hs, hidentity, hsuffix⟩ := hdrained cid s' hs'
    rw [← hidentity]
    exact h.pending cid s hs id (hsuffix.subset hid)
  · obtain ⟨-, hmessages, -, -, hsessions⟩ := hb.fields
    obtain ⟨-, -, -, -, hsessions'⟩ := hafter.fields
    rw [hsessions', registerSession_sessions, Table.lookup_insert_eq] at hs'
    split at hs'
    · obtain rfl := Option.some.inj hs'
      obtain ⟨m, hm, hmid, hreplayable⟩ := missedBy_replayable hid
      rw [hmessages] at hm
      refine ⟨h.ordered.bounded id ⟨m, hm, hmid⟩, fun m' hm' hmid' => ?_⟩
      obtain rfl := h.ordered.eq_of_id hm hm' (hmid.trans hmid'.symm)
      exact hreplayable
    · exact h.pending cid s' (hsessions ▸ hs') id hid

theorem start_ordered {config : Config} {db : NodeState} {first : Attempt} {attempts : List Attempt} (hdb : db.Ordered)
    (h : (Core.new config db).start env first attempts = .ok c) : Foreign c := by
  obtain ⟨-, hmessages, hseq, -, hsessions⟩ := (start_quiet h).fields
  refine ⟨hdb.sublist (hmessages ▸ List.Sublist.refl _) hseq, fun cid s hs => ?_⟩
  rw [hsessions] at hs
  cases hs

theorem Service.deals (h : Service l c) (hs : c.step frontend e = .ok c₁) : Deals (c.begin frontend) e c₁ := by
  obtain ⟨_, ha⟩ := h.accounted
  exact step_deals hs ha.awaiting

theorem Service.foreign (h : Service l c) : Foreign c := by
  induction h with
  | install h => exact start_ordered ⟨List.Pairwise.nil, by rintro id ⟨m, hm, -⟩; cases hm⟩ h
  | restart _ h ih => exact start_ordered ih.ordered h
  | @turn l c c₁ frontend e hservice hs ih =>
    have hbegin : Foreign (c.begin frontend) := ⟨⟨ih.ordered.ascending, ih.ordered.bounded⟩, ih.pending⟩
    exact hbegin.deals (hservice.deals hs)

/-- What is known of a message that was stored holds ever after. -/
theorem Service.old {p : MessageRow → Prop} (h : Service (l ++ .turn s :: l') c) (hold : s.after.Old p id) :
    c.Old p id := by
  induction l' using List.reverseRecOn generalizing c with
  | nil =>
    obtain ⟨-, -, rfl⟩ := h.of_turn
    exact hold
  | append_singleton l' d ih =>
    rw [← List.cons_append, ← List.append_assoc] at h
    cases d with
    | boot env first attempts =>
      obtain ⟨c', config, hservice, hstart⟩ := h.of_boot (by simp)
      obtain ⟨-, hmessages, hseq, -, -⟩ := (start_quiet hstart).fields
      have hbefore : c'.Old p id := ih hservice
      rw [Old, hmessages, hseq]
      exact hbefore
    | turn t =>
      obtain ⟨hservice, hs, rfl⟩ := h.of_turn
      have hbefore : t.before.Old p id := ih hservice
      have hbegin : (t.before.begin t.frontend).Old p id := hbefore
      exact hbegin.deals (hservice.deals hs)

/-! ### Where a message came from -/

/-- The request was sent last for a client that was `who` then. -/
def SentFor (l : List Deed) (who : Identity) (q : Queued) : Prop :=
  Since (Deed.Turns fun u => .radio q ∈ u.after.out ∧ ∃ cid, q.clientId = some cid ∧ u.after.identityOf cid = some who)
    (fun d => .radio q ∉ d.out) l

/-- The turn stores the message. -/
def Lap.Stores (s : Lap) (id : MessageId) : Prop := s.before.db.messageSeq < id ∧ id ≤ s.after.db.messageSeq

/-- The message is one that a client sent while it was `who`, stored as the radio accepted it. -/
def Own (l : List Deed) (who : Identity) (id : MessageId) : Prop :=
  ∃ m u n q how, l = m ++ .turn u :: n ∧ SentFor m who q ∧
  (q.payload.code = 0x02 ∨ q.payload.code = 0x03) ∧ .ended q how ∈ u.after.out ∧ how.IsAcceptance ∧ u.Stores id

/-- A client's request in flight has the identity that its client had when it was sent, and was not sent since. -/
theorem Service.sent (h : Service l c) (hf : c.inFlight = some f) (hclient : f.clientId.isSome) :
    Since (Deed.Turns fun u => .radio f.request ∈ u.after.out ∧ f.origin = f.clientId.bind u.after.identityOf)
      (fun d => .radio f.request ∉ d.out) l := by
  induction h generalizing f with
  | install h | restart _ h =>
    rw [(start_internal h hf).1] at hclient
    cases hclient
  | @turn l c c₁ frontend e hservice hs ih =>
    rw [since_concat]
    rcases step_dispatched hs f hf with ⟨f₀, hf₀, hrequest, horigin⟩ | hsent
    · have hclient₀ : f₀.clientId = f.clientId := congrArg Queued.clientId hrequest
      have hbefore := ih hf₀ (hclient₀ ▸ hclient)
      rw [hrequest, hclient₀, horigin] at hbefore
      refine Or.inr ⟨hbefore, fun hagain => ?_⟩
      -- No request is sent twice.
      obtain ⟨out, ha⟩ := hservice.accounted
      have hbegin : Ledger False out (c.begin frontend) := ha.begin
      obtain ⟨ha₁, -⟩ := handle_ledger hs hbegin False.elim fun h => h.elim
      have hone : Outcome (out ++ c₁.out) c₁ f.request :=
        ha₁.outcome (ha₁.handed_of_present (by simp [Lane.present, lane, hf]))
      have hfirst : f.request ∈ sentToRadio out := mem_sentToRadio.mpr (hrequest ▸ ha.sent_of_slot hf₀)
      have hsecond : f.request ∈ sentToRadio c₁.out := mem_sentToRadio.mpr hagain
      have htwice := hone.sent
      rw [sentToRadio_append, List.count_append] at htwice
      have h₁ := List.count_pos_iff.mpr hfirst
      have h₂ := List.count_pos_iff.mpr hsecond
      omega
    · exact Or.inl ⟨hsent.radio, hsent.origin⟩

/-- The message that a turn stores has the origin of what the turn accepts. -/
theorem Service.own_origin (h : Service (l ++ .turn s :: l') c) {q : Queued} {how : Ending} (hsent : SentFor l who q)
    (hsend : q.payload.code = 0x02 ∨ q.payload.code = 0x03) (hended : .ended q how ∈ s.after.out)
    (haccept : how.IsAcceptance) (hstores : s.Stores id) : s.after.Old (·.origin = some who) id := by
  obtain ⟨hservice, hs⟩ := h.split
  obtain ⟨_, hreach⟩ := hservice.reachable
  obtain ⟨_, ha⟩ := hservice.accounted
  obtain ⟨f, hf, rfl⟩ := ended_accepted hreach.told hs hended haccept
  obtain ⟨env, frame, code, hevent, hslot, hcode, hends, -⟩ := radio_of_accepts hf
  have horigin : f.origin = some who := by
    obtain ⟨l₁, d, l₂, rfl, hturn, hlast⟩ := hsent
    cases d with
    | boot => exact hturn.elim
    | turn u =>
      obtain ⟨hradio, cid, hclient, hwho⟩ := hturn
      have hclient : f.clientId = some cid := hclient
      obtain ⟨m₁, d, m₂, heq, hturn, hlast'⟩ := hservice.sent hslot (by rw [hclient]; rfl)
      cases d with
      | boot => exact hturn.elim
      | turn u' =>
        obtain ⟨-, heq, -⟩ := last_unique (p := fun d => .radio f.request ∈ d.out) heq hradio hturn.1 hlast hlast'
        cases heq
        rw [hturn.2, hclient]
        exact hwho
  rcases (hservice.deals hs).messages with ⟨-, hseq⟩ | ⟨env', frame', msg, he, hsource, hmessages, hseq⟩
  · have hseq : s.after.db.messageSeq = s.before.db.messageSeq := hseq
    exact absurd (lt_of_lt_of_le hstores.1 hstores.2) (by rw [hseq]; exact lt_irrefl _)
  · have hmsg : msg.origin = some who := by
      rcases hsource with ⟨⟨code', hcode', hmessage⟩, -⟩ | ⟨f', hslot', horigin'⟩
      · -- A message accepts no SEND_MSG.
        rw [hevent] at he
        cases he
        obtain rfl : code = code' := Option.some.inj (hcode.symm.trans hcode')
        rw [ha.awaiting f hslot] at hends
        exact absurd hsend (not_sends_of_fansOut hmessage hends)
      · have hslot' : s.before.inFlight = some f' := hslot'
        obtain rfl : f = f' := Option.some.inj (hslot.symm.trans hslot')
        exact horigin'.trans horigin
    refine ⟨hstores.2, fun m hm hid => ?_⟩
    rw [hmessages] at hm
    rcases List.mem_append.mp hm with hm | hm
    · have hbound := hservice.foreign.ordered.bounded id ⟨m, hm, hid⟩
      exact absurd hstores.1 (not_lt.mpr hbound)
    · rw [List.mem_singleton.mp hm, NodeState.newRow_origin]
      exact hmsg

/-- A message that a client sent is not replayed to a client of the same identity. -/
theorem own_not_replayed (h : Service (l ++ .turn s :: l') c) (hreplay : s.Replays cid id)
    (hwho : s.before.identityOf cid = some who) : ¬Own l who id := by
  rintro ⟨m, u, n, q, how, rfl, hsent, hsend, hended, haccept, hstores⟩
  obtain ⟨hservice, hs⟩ := h.split
  obtain ⟨_, hreach⟩ := hservice.reachable
  obtain ⟨-, hown⟩ : s.before.Old (·.origin = some who) id :=
    hservice.old (hservice.own_origin hsent hsend hended haccept hstores)
  obtain ⟨_, _, _, hsent⟩ := hreplay
  obtain ⟨env, cmd, who', -, rfl, hreplaying⟩ := replay_source hreach.told hs hsent
  obtain rfl : who = who' := Option.some.inj (hwho.symm.trans hreplaying.identity)
  obtain ⟨frame, hmissed⟩ := hreplaying.missed
  obtain ⟨session, hlookup, hfirst⟩ := Option.bind_eq_some_iff.mp hmissed
  obtain ⟨hframe, hpending⟩ := firstFrame_stored hfirst
  obtain ⟨row, hrow, hid⟩ := NodeState.has_of_messageFrame hframe
  obtain ⟨-, hreplayable⟩ := hservice.foreign.pending _ _ hlookup id hpending
  have hidentity : some session.identity = some who := (identityOf_of_lookup hlookup).symm.trans hreplaying.identity
  have hyes := hreplayable row hrow hid
  rw [Option.some.inj hidentity, NodeState.not_replayableTo (hown row hrow hid)] at hyes
  cases hyes

/-- A client sends a message and goes; when it is back, it is replayed what came while it was gone. -/
theorem own_not_replayed_away : ∃ l s c, Service (l ++ [.turn s]) c ∧ s.Replays 2 2 ∧ Own l (5000, [0x61]) 1 ∧
    ¬Own l (5000, [0x61]) 2 := by
  let send : ClientCommand := ⟨1, 5000, [0x02, 0, 0, 0, 0, 0, 0, 1, 2, 3, 4, 5, 6, 0x68]⟩
  let q : Queued := ⟨some 1, ⟨send.payload, List.cons_ne_nil _ _⟩, 2⟩
  let message : Bytes := [0x11, 0, 0, 0, 0, 0, 0, 0, 0, 0, 0]
  have hrun : Except.Holds (do
      let c₀ ← (Core.new ⟨.off, true, false, ⟨0, 0, 0, 0⟩, .off⟩ .empty).start sound
        ⟨true, [.frame (0x05 :: List.replicate 35 0), .frame [0x0D, 3, 0, 1]], sound, sound,
          { sound with writerOpen := false }⟩ []
      let c₁ ← c₀.step [[.connect]] (startOf 1)
      let c₂ ← c₁.step [] (.command sound send)
      let c₃ ← c₂.step [] (.radio sound [0x06, 0])
      let c₄ ← c₃.step [[.disconnect 1]] (.radio sound message)
      let c₅ ← c₄.step [[.connect]] (startOf 2)
      let c₆ ← c₅.step [] (pollOf 2)
      return (c₀, c₁, c₂, c₃, c₄, c₅, c₆)) fun (_, _, c₂, c₃, _, c₅, c₆) =>
        (.radio q ∈ c₂.out ∧ c₂.identityOf 1 = some (5000, [0x61])) ∧
        (.ended q (.replied 0x06) ∈ c₃.out ∧ c₂.db.messageSeq = 0 ∧ c₃.db.messageSeq = 1) ∧
        c₅.identityOf 2 = some (5000, [0x61]) ∧ .client 2 (some (5000, [0x61])) 0 (messageFrameFor 0 message) (.replay
          2) ∈ c₆.out := by
    decide +kernel
  obtain ⟨⟨c₀, c₁, c₂, c₃, c₄, c₅, c₆⟩, hrun, ⟨hradio, hwho⟩, ⟨hended, hseq, hseq'⟩, hback, hreplayed⟩ := hrun
  obtain ⟨_, hboot, hrun⟩ := Except.of_bind_eq_ok hrun
  obtain ⟨_, h₁, hrun⟩ := Except.of_bind_eq_ok hrun
  obtain ⟨_, h₂, hrun⟩ := Except.of_bind_eq_ok hrun
  obtain ⟨_, h₃, hrun⟩ := Except.of_bind_eq_ok hrun
  obtain ⟨_, h₄, hrun⟩ := Except.of_bind_eq_ok hrun
  obtain ⟨_, h₅, hrun⟩ := Except.of_bind_eq_ok hrun
  obtain ⟨_, h₆, hrun⟩ := Except.of_bind_eq_ok hrun
  cases hrun
  have hall := ((((((Service.install hboot).turn h₁).turn h₂).turn h₃).turn h₄).turn h₅).turn h₆
  have hsent (l : List Deed) : SentFor (l ++ [.turn ⟨c₁, [], .command sound send, c₂⟩]) (5000, [0x61]) q :=
    since_concat.mpr (Or.inl ⟨hradio, 1, rfl, hwho⟩)
  have haccept : (Ending.replied 0x06).IsAcceptance := show (0x06 : UInt8) ≠ 0x01 by decide
  have hstores : Lap.Stores ⟨c₂, [], .radio sound [0x06, 0], c₃⟩ 1 := ⟨hseq ▸ by decide, hseq' ▸ le_refl _⟩
  have hown (l l' : List Deed) :
      Own (l ++ [.turn ⟨c₁, [], .command sound send, c₂⟩] ++ .turn ⟨c₂, [], .radio sound [0x06, 0], c₃⟩ :: l')
      (5000, [0x61]) 1 :=
    ⟨_, _, l', q, _, rfl, hsent l, Or.inl rfl, hended, haccept, hstores⟩
  exact ⟨_, _, _, hall, ⟨_, _, _, hreplayed⟩, hown [_, _] [_, _], own_not_replayed hall ⟨_, _, _, hreplayed⟩ hback⟩

end
end Core
end CoreSplitter
