import Mathlib.Order.Bounds.Basic
import CoreSplitter.Theorems.Origins
import CoreSplitter.Theorems.Retention

/-! What a client missed is replayed to it in order, and where it left off. -/

namespace CoreSplitter
open Bytes

namespace NodeState
variable {db : NodeState} {backlog : Backlog} {now : Int} {who : Identity} {id : MessageId}

/-- The message is stored and replayable to the client, and the client is behind it; or the client is a new one, and the
    message is in the backlog that it gets. -/
def Owes (db : NodeState) (backlog : Backlog) (now : Int) (who : Identity) (id : MessageId) : Prop :=
  ∃ m ∈ db.messages, m.id = id ∧ replayableTo who m = true ∧ match db.clientCursor who with
    | some cursor => cursor < id
    | none => match backlog with
      | .off => False
      | .messages n => (db.messages.filter fun m => decide (id < m.id) && replayableTo who m).length < n
      | .seconds secs => ∃ t, m.receivedAt = some t ∧ now - secs ≤ t

theorem mem_messageIdsAfter {after : MessageId} : id ∈ db.messageIdsAfter after who ↔
    ∃ m ∈ db.messages, m.id = id ∧ replayableTo who m = true ∧ after < id := by
  simp only [messageIdsAfter, List.mem_map, List.mem_filter, Bool.and_eq_true, decide_eq_true_eq]
  constructor
  · rintro ⟨m, ⟨hm, hafter, hreplayable⟩, rfl⟩
    exact ⟨m, hm, rfl, hreplayable, hafter⟩
  · rintro ⟨m, hm, rfl, hreplayable, hafter⟩
    exact ⟨m, ⟨hm, hafter, hreplayable⟩, rfl⟩

theorem mem_backlogMessageIds (hdb : db.Ordered) : id ∈ db.backlogMessageIds now backlog who ↔
    ∃ m ∈ db.messages, m.id = id ∧ replayableTo who m = true ∧ match backlog with
      | .off => False
      | .messages n => (db.messages.filter fun m => decide (id < m.id) && replayableTo who m).length < n
      | .seconds secs => ∃ t, m.receivedAt = some t ∧ now - secs ≤ t := by
  unfold backlogMessageIds
  cases backlog with
  | off => simp
  | messages n =>
    have hsorted : ((db.messages.filter (replayableTo who)).map (·.id)).Pairwise (· < ·) :=
      hdb.ascending.sublist (List.filter_sublist.map _)
    have habove : ((db.messages.filter (replayableTo who)).map (·.id)).filter (fun id' => decide (id < id')) =
        (db.messages.filter fun m => decide (id < m.id) && replayableTo who m).map (·.id) := by
      rw [List.filter_map, List.filter_filter]
      rfl
    dsimp only
    rw [mem_drop_iff_of_sorted hsorted, habove, List.length_map]
    simp only [List.mem_map, List.mem_filter]
    constructor
    · rintro ⟨⟨m, ⟨hm, hreplayable⟩, rfl⟩, hlast⟩
      exact ⟨m, hm, rfl, hreplayable, hlast⟩
    · rintro ⟨m, hm, rfl, hreplayable, hlast⟩
      exact ⟨⟨m, ⟨hm, hreplayable⟩, rfl⟩, hlast⟩
  | seconds secs =>
    simp only [List.mem_map, List.mem_filter, Bool.and_eq_true, Option.any_eq_true, decide_eq_true_eq]
    constructor
    · rintro ⟨m, ⟨hm, ⟨t, ht, hrecent⟩, hreplayable⟩, rfl⟩
      exact ⟨m, hm, rfl, hreplayable, t, ht, hrecent⟩
    · rintro ⟨m, hm, rfl, hreplayable, t, ht, hrecent⟩
      exact ⟨m, ⟨hm, ⟨t, ht, hrecent⟩, hreplayable⟩, rfl⟩

end NodeState

namespace Core

/-! ### What is missed -/

section
variable {c c₁ b : Core} {env : Env} {cmd : ClientCommand} {who : Identity} {id : MessageId}
  {cid : ClientId} {e : Event} {frontend : List (List FrontendOp)} {s : Session}

theorem mem_missedBy (hcursor : env.dbOk .registerCursor = true) (hids : env.dbOk .registerIds = true)
    (hdb : c.db.Ordered) : id ∈ c.missedBy env who ↔ c.db.Owes c.config.newClientBacklog env.unix who id := by
  unfold missedBy NodeState.Owes
  simp only [hcursor, hids, Bool.not_true, Bool.false_eq_true, if_false]
  cases c.db.clientCursor who with
  | some cursor => exact NodeState.mem_messageIdsAfter
  | none => exact NodeState.mem_backlogMessageIds hdb

theorem firstFrame_eq_none (hok : ∀ call, env.dbOk call = true) {pending : List MessageId} :
    c.firstFrame env pending = none ↔ ∀ id ∈ pending, c.db.messageFrame id = none := by
  simp [firstFrame, hok]

/-- A message that is replayable has a frame as long as it is stored. -/
theorem Old.frame (h : c.Old (NodeState.replayableTo who · = true) id) (hhas : c.db.Has id) :
    c.db.messageFrame id ≠ none := by
  obtain ⟨m, hm, hid⟩ := hhas
  have hframe : m.frame.isSome = true := by
    have hreplayable : NodeState.replayableTo who m = true := h.2 m hm hid
    simp only [NodeState.replayableTo, Bool.and_eq_true] at hreplayable
    exact hreplayable.1
  unfold NodeState.messageFrame
  cases hfind : c.db.messages.find? fun m => m.id == id && m.frame.isSome with
  | none => exact absurd (List.find?_eq_none.mp hfind m hm) (by simp [hid, hframe])
  | some m' =>
    have hm' := List.find?_some hfind
    simp only [Bool.and_eq_true] at hm'
    exact Option.isSome_iff_ne_none.mp hm'.2

theorem Deals.has (h : Deals c e c₁) (hid : id ≤ c.db.messageSeq) (hhas : c₁.db.Has id) : c.db.Has id := by
  have hold : c.Old (· ∈ c.db.messages) id := ⟨hid, fun m hm _ => hm⟩
  obtain ⟨m, hm, rfl⟩ := hhas
  exact ⟨m, (hold.deals h).2 m hm rfl, rfl⟩

/-! ### What a GET_MSG is answered -/

section
variable {frame : Bytes}

theorem replayNextMissed_serves (hs : c.sessions.lookup cid = some s)
    (hfirst : c.firstFrame env s.pending = some (id, frame)) :
    (c.replayNextMissed env cid).1 = true ∧
      (c.replayNextMissed env cid).2.out = c.out ++ if cid ∈ (c.replayNextMissed env cid).2.clients.channels then
        [.client cid (some s.identity) (c.protocolVersion cid) (messageFrameFor (c.protocolVersion cid) frame)
          (.replay id)] else [] := by
  rcases replayPending_cases c env cid s s.pending with ⟨hnone, -⟩ | ⟨skipped, id', rest, frame', -, -, hfirst', heq⟩
  · rw [hfirst] at hnone
    cases hnone
  · rw [hfirst] at hfirst'
    cases hfirst'
    have hlookup : (c.setPending cid s rest).sessions.lookup cid = some { s with pending := rest } :=
      Table.lookup_insert_eq.trans (if_pos rfl)
    have hidentity : (c.setPending cid s rest).identityOf cid = some (Session.identity { s with pending := rest }) :=
      identityOf_of_lookup hlookup
    have hsent : ((c.setPending cid s rest).sendToClient cid frame (.replay id)).out = _ := sendToClient_out
    rw [delivery, hidentity] at hsent
    have hserved :
        (c.served env cid s id frame rest).out = ((c.setPending cid s rest).sendToClient cid frame (.replay id)).out ∧
        (c.served env cid s id frame rest).clients =
        ((c.setPending cid s rest).sendToClient cid frame (.replay id)).clients := by
      unfold served
      dsimp only
      split <;> exact ⟨rfl, rfl⟩
    have hcatch (b : Core) : (if b.isCaughtUp cid && env.dbOk .replayHead && env.dbOk .replayCatchUp then
        b.advanceClientCursor env s.identity b.db.messageHead else b).out = b.out ∧
        (if b.isCaughtUp cid && env.dbOk .replayHead && env.dbOk .replayCatchUp then
          b.advanceClientCursor env s.identity b.db.messageHead else b).clients = b.clients := by
      split <;> exact ⟨rfl, rfl⟩
    unfold replayNextMissed
    simp only [hs, heq, hcatch, hserved]
    exact ⟨trivial, hsent⟩

theorem replayNextMissed_passes (hnone : c.nextMissed env cid = none) :
    (c.replayNextMissed env cid).1 = false ∧ (c.replayNextMissed env cid).2.out = c.out := by
  unfold replayNextMissed
  cases hs : c.sessions.lookup cid with
  | none => exact ⟨rfl, rfl⟩
  | some s =>
    have hnone : c.firstFrame env s.pending = none := by simpa [nextMissed, hs] using hnone
    rcases replayPending_cases c env cid s s.pending with ⟨-, heq⟩ | ⟨_, _, _, _, -, -, hfirst, -⟩
    · dsimp only
      rw [heq]
      dsimp only
      refine ⟨rfl, ?_⟩
      split <;> split <;> rfl
    · rw [hfirst] at hnone
      cases hnone

/-- A GET_MSG of a client that missed a message is answered with it alone, if the client is there to get it. -/
theorem poll_replays (hs : c.step frontend (.command env cmd) = .ok c₁) (hhead : cmd.payload.head? = some 0x0A)
    (hcid : cmd.clientId ∈ (c.begin frontend).clients.lock.channels)
    (hsession : c.sessions.lookup cmd.clientId = some s) (hfirst : c.firstFrame env s.pending = some (id, frame)) :
    c₁.out = if cmd.clientId ∈ c₁.clients.channels
    then [.client cmd.clientId (some s.identity) (c.protocolVersion cmd.clientId)
      (messageFrameFor (c.protocolVersion cmd.clientId) frame) (.replay id)] else [] := by
  obtain ⟨hne, hc₁⟩ := handleClientCommand_poll (c := c.begin frontend) hs hhead hcid
  obtain ⟨hserved, hout⟩ := replayNextMissed_serves (c := (c.begin frontend).lockClients) hsession hfirst
  rw [if_pos hserved] at hc₁
  rw [← hc₁] at hout
  exact hout

theorem enqueueOrDispatch_hands (c : Core) (env : Env) (clientId : Option ClientId) (p : Command) :
    .handed ⟨clientId, p, c.nextTicket⟩ ∈ (c.enqueueOrDispatch env clientId p).out := by
  unfold enqueueOrDispatch
  split
  · have hhanded : .handed ⟨clientId, p, c.nextTicket⟩ ∈ (c.hand clientId p).2.out :=
      List.mem_append_right _ (List.mem_singleton_self _)
    dsimp only
    rw [dispatchToRadio_eq]
    split
    · obtain ⟨db, self, device, battery, hform, -⟩ := startWith_form (c.hand clientId p).2 env (c.hand clientId p).1
      rw [hform]
      exact List.mem_append_left _ hhanded
    · have hstill := failTo_still (c := (c.hand clientId p).2) (q := (c.hand clientId p).1)
      obtain ⟨es, hout, -⟩ := hstill.out
      refine List.mem_append_left _ ?_
      rw [hout]
      exact List.mem_append_left _ hhanded
  · exact List.mem_append_right _ (List.mem_singleton_self _)

/-- A GET_MSG of a client that missed nothing is handed to the queue. -/
theorem poll_passes (hs : c.step frontend (.command env cmd) = .ok c₁) (hhead : cmd.payload.head? = some 0x0A)
    (hcid : cmd.clientId ∈ (c.begin frontend).clients.lock.channels) (hnone : c.nextMissed env cmd.clientId = none) :
    ∃ q, .handed q ∈ c₁.out ∧ q.clientId = some cmd.clientId ∧ q.payload.bytes = cmd.payload := by
  obtain ⟨hne, hc₁⟩ := handleClientCommand_poll (c := c.begin frontend) hs hhead hcid
  obtain ⟨hpasses, -⟩ := replayNextMissed_passes (c := (c.begin frontend).lockClients) hnone
  rw [if_neg (by rw [hpasses]; decide)] at hc₁
  have hcode : Command.code ⟨cmd.payload, hne⟩ = 0x0A := by
    rw [List.head?_eq_some_head hne] at hhead
    exact Option.some.inj hhead
  have hforwarded : forwardedPayload ⟨cmd.payload, hne⟩ = ⟨cmd.payload, hne⟩ := if_neg (by rw [hcode]; decide)
  rw [serveFromRadio, hcode, hforwarded] at hc₁
  rw [hc₁]
  exact ⟨_, enqueueOrDispatch_hands _ env (some cmd.clientId) ⟨cmd.payload, hne⟩, rfl, rfl⟩

end

theorem Service.born {l : List Deed} (h : Service l c) :
    ∀ cid s, c.sessions.lookup cid = some s → cid < c.clients.nextId := by
  have hstart {config : Config} {db : NodeState} {env : Env} {first : Attempt} {attempts : List Attempt} {c : Core}
      (h : (Core.new config db).start env first attempts = .ok c) : ∀ cid s,
      c.sessions.lookup cid = some s → cid < c.clients.nextId := by
    obtain ⟨-, -, -, -, hsessions⟩ := (start_quiet h).fields
    intro cid s hs
    rw [hsessions] at hs
    cases hs
  induction h with
  | install h | restart _ h => exact hstart h
  | @turn l c c₁ frontend e hservice hs ih =>
    have hd := hservice.deals hs
    have hold {cid : ClientId} {s : Session} (h : c.sessions.lookup cid = some s) : cid < c₁.clients.nextId :=
      Nat.lt_of_lt_of_le (ih cid s h) hd.onward.later.nextId
    intro cid s' hs'
    rcases hd.sessions with hdrained | ⟨env, cmd, b, rfl, here, hb, hafter⟩
    · obtain ⟨s, hs, -⟩ := hdrained cid s' hs'
      exact hold hs
    · obtain ⟨-, -, -, -, hsessions⟩ := hb.fields
      obtain ⟨-, -, -, -, hsessions'⟩ := hafter.fields
      rw [hsessions', registerSession_sessions, Table.lookup_insert_eq] at hs'
      split at hs'
      · rename_i hcid
        have hvalid : b.clients.Valid := hb.onward.valid ⟨hservice.valid.born, hservice.valid.nodup⟩
        have hlater := hafter.onward.later.nextId
        rw [registerSession_clients] at hlater
        exact Nat.lt_of_lt_of_le (hcid ▸ hvalid.born _ here) hlater
      · rw [hsessions] at hs'
        exact hold hs'

/-! ### What remains -/

/-- What is pending of what was missed: the rest was served, or is not stored any more. -/
def Remains (missed : List MessageId) (S : MessageId → Prop) (db : NodeState) (pending : List MessageId) : Prop :=
  ∃ done, missed = done ++ pending ∧ (∀ id ∈ done, S id ∨ ¬db.Has id) ∧ ∀ id, S id → id ∈ done

section
variable {missed pending rest : List MessageId} {S S' : MessageId → Prop} {db db' : NodeState}
  {taken : Option MessageId}

theorem Remains.of_db (h : Remains missed S db pending) (hhas : ∀ id ∈ missed, db'.Has id → db.Has id)
    (hS : ∀ id, S' id ↔ S id) : Remains missed S' db' pending := by
  obtain ⟨done, rfl, hdone, hserved⟩ := h
  refine ⟨done, rfl, fun id hid => ?_, fun id hid => hserved id ((hS id).mp hid)⟩
  exact (hdone id hid).imp (hS id).mpr fun hgone hhas' => hgone (hhas id (List.mem_append_left _ hid) hhas')

/-- A GET_MSG serves the first of what is pending and stored, and passes over what is not. -/
theorem Remains.pops (h : Remains missed S c.db pending) (hok : ∀ call, env.dbOk call = true)
    (hold : ∀ id ∈ missed, c.Old (NodeState.replayableTo who · = true) id) (hpops : c.Pops env pending taken rest) :
    Remains missed (fun id => S id ∨ taken = some id) c.db rest := by
  obtain ⟨done, rfl, hdone, hserved⟩ := h
  have hgone {skipped : List MessageId} (hnone : c.firstFrame env skipped = none)
      (hsub : ∀ id ∈ skipped, id ∈ done ++ pending) (id : MessageId) (hid : id ∈ skipped) : ¬c.db.Has id := fun hhas =>
    (hold id (hsub id hid)).frame hhas ((firstFrame_eq_none hok).mp hnone id hid)
  rcases hpops with ⟨hnone, rfl, rfl⟩ | ⟨skipped, id, frame, rfl, rfl, hskipped, -⟩
  · refine ⟨done ++ pending, (List.append_nil _).symm, fun id hid => ?_, fun id hid => ?_⟩
    · rcases List.mem_append.mp hid with hid | hid
      · exact (hdone id hid).imp_left Or.inl
      · exact Or.inr (hgone hnone (fun _ h => List.mem_append_right _ h) id hid)
    · exact List.mem_append_left _ (hserved id (hid.resolve_right nofun))
  · refine ⟨done ++ skipped ++ [id], by simp, fun id' hid' => ?_, fun id' hid' => ?_⟩
    · rcases List.mem_append.mp hid' with hid' | hid'
      · rcases List.mem_append.mp hid' with hid' | hid'
        · exact (hdone id' hid').imp_left Or.inl
        · exact Or.inr (hgone hskipped (fun _ h => List.mem_append_right _ (List.mem_append_left _ h)) id' hid')
      · exact Or.inl (Or.inr (by rw [List.mem_singleton.mp hid']))
    · rcases hid' with hid' | heq
      · exact List.mem_append_left _ (List.mem_append_left _ (hserved id' hid'))
      · exact List.mem_append_right _ (List.mem_singleton.mpr (Option.some.inj heq).symm)

end

/-! ### One connection -/

namespace Lap

/-- The turn identifies the connection, by its APP_START. -/
def Identifies (s : Lap) (cid : ClientId) (who : Identity) : Prop :=
  ∃ env cmd, s.event = .command env cmd ∧ cmd.clientId = cid ∧
  cmd.payload.head? = some 0x01 ∧ (cmd.localPort, appNameOf cmd.payload) = who ∧
    cid ∈ (s.before.begin s.frontend).clients.lock.channels

/-- The turn handles a GET_MSG of the connection. -/
def Polls (s : Lap) (cid : ClientId) : Prop := ∃ env cmd, s.event = .command env cmd ∧ cmd.clientId = cid ∧
  cmd.payload.head? = some 0x0A ∧ cid ∈ (s.before.begin s.frontend).clients.lock.channels

/-- The turn finds that the client missed the message. -/
def Owes (s : Lap) (who : Identity) (id : MessageId) : Prop :=
  ∃ env cmd, s.event = .command env cmd ∧ s.before.db.Owes s.before.config.newClientBacklog env.unix who id

/-- The turn hands a request of the connection to the queue, to be sent to the radio. -/
def Passes (s : Lap) (cid : ClientId) : Prop := ∃ q, .handed q ∈ s.after.out ∧ q.clientId = some cid

end Lap

/-- What a connection was identified for is still pending for it, or was replayed to it, or is not stored any more. -/
structure Awaits (missed : List MessageId) (S : MessageId → Prop) (cid : ClientId) (who : Identity)
    (c : Core) : Prop where
  born : cid < c.clients.nextId
  old : ∀ id ∈ missed, c.Old (NodeState.replayableTo who · = true) id
  remains : ∃ pending, Remains missed S c.db pending ∧
    (cid ∈ c.clients.channels → ∃ s, c.sessions.lookup cid = some s ∧ s.identity = who ∧ s.pending = pending)

section
variable {missed : List MessageId} {S : MessageId → Prop} {l r : List Deed}

theorem Deals.of_start (h : Deals c (.command env cmd) c₁) (hhead : cmd.payload.head? = some 0x01)
    (hcid : cmd.clientId ∈ c.clients.lock.channels) :
    ∃ b, Quiet c b ∧ Quiet (b.registerSession env cmd) c₁ ∧ cmd.clientId ∈ b.clients.channels := by
  cases h with
  | register _ _ hb hafter here => exact ⟨_, hb, hafter, here⟩
  | poll _ head =>
    rw [hhead] at head
    cases head
  | serve other => exact absurd hhead (other hcid).1
  | rest silent => rcases silent with ⟨_, h⟩ | ⟨_, h⟩ | h <;> cases h

theorem Deals.of_poll (h : Deals c (.command env cmd) c₁) (hhead : cmd.payload.head? = some 0x0A)
    (hcid : cmd.clientId ∈ c.clients.lock.channels) :
    ∃ b, Quiet c b ∧ Quiet (b.replayNextMissed env cmd.clientId).2 c₁ := by
  cases h with
  | register _ head =>
    rw [hhead] at head
    cases head
  | poll _ _ hb hafter => exact ⟨_, hb, hafter⟩
  | serve other => exact absurd hhead (other hcid).2
  | rest silent => rcases silent with ⟨_, h⟩ | ⟨_, h⟩ | h <;> cases h

theorem Quiet.missedBy (h : Quiet c c₁) : c₁.missedBy env who = c.missedBy env who := by
  obtain ⟨hconfig, hmessages, -, hclients, -⟩ := h.fields
  simp only [Core.missedBy, NodeState.clientCursor, NodeState.messageIdsAfter, NodeState.backlogMessageIds, hconfig,
    hmessages, hclients]

theorem Lap.owes_iff {s : Lap} (he : s.event = .command env cmd) (hok : ∀ call, env.dbOk call = true)
    (hdb : s.before.db.Ordered) : s.Owes who id ↔ id ∈ s.before.missedBy env who := by
  rw [mem_missedBy (hok _) (hok _) hdb]
  constructor
  · rintro ⟨_, _, heq, howes⟩
    cases he.symm.trans heq
    exact howes
  · exact fun howes => ⟨env, cmd, he, howes⟩

/-- An APP_START leaves what its client missed pending. -/
theorem Service.registered (h : Service l c) (hs : c.step frontend (.command env cmd) = .ok c₁)
    (hhead : cmd.payload.head? = some 0x01) (halive : cmd.clientId ∈ (c.begin frontend).clients.lock.channels) :
    c₁.sessions.lookup cmd.clientId =
      some ⟨cmd.localPort, appNameOf cmd.payload, c.missedBy env (cmd.localPort, appNameOf cmd.payload)⟩ := by
  obtain ⟨b, hb, hafter, here⟩ := (h.deals hs).of_start hhead halive
  obtain ⟨-, -, -, -, hsessions⟩ := hafter.fields
  rw [hsessions, registerSession_sessions, hb.missedBy, Table.lookup_insert_eq, if_pos rfl]
  rfl

theorem Service.awaits (h : Service l c) (hs : c.step frontend e = .ok c₁) (hok : e.DbOk)
    (hstart : Lap.Identifies ⟨c, frontend, e, c₁⟩ cid who) : ∃ missed : List MessageId, missed.Pairwise (· < ·) ∧
      (∀ id, id ∈ missed ↔ Lap.Owes ⟨c, frontend, e, c₁⟩ who id) ∧ Awaits missed (fun _ => False) cid who c₁ := by
  obtain ⟨env, cmd, he, rfl, hhead, rfl, halive⟩ := hstart
  obtain rfl : e = .command env cmd := he
  have hordered : c.db.Ordered := h.foreign.ordered
  have hlookup := h.registered hs hhead halive
  have howes {id : MessageId} : Lap.Owes ⟨c, frontend, .command env cmd, c₁⟩ (cmd.localPort, appNameOf cmd.payload) id ↔
      id ∈ c.missedBy env (cmd.localPort, appNameOf cmd.payload) := Lap.owes_iff rfl hok hordered
  refine ⟨c.missedBy env (cmd.localPort, appNameOf cmd.payload), (missedBy_spec c env _ hordered).1,
    fun id => howes.symm, ?_, fun id hid => ?_, ?_⟩
  · exact (h.turn hs).born _ _ hlookup
  · exact (h.turn hs).foreign.pending _ _ hlookup id hid
  · exact ⟨_, ⟨[], rfl, nofun, fun _ => False.elim⟩, fun _ => ⟨_, hlookup, rfl, rfl⟩⟩

theorem exists_pops (c : Core) (env : Env) (pending : List MessageId) :
    ∃ taken rest, c.Pops env pending taken rest := by
  rcases replayPending_cases c env 0 ⟨0, [], pending⟩ pending with ⟨hnone, -⟩ |
    ⟨skipped, id, rest, frame, hpending, hskipped, hfirst, -⟩
  · exact ⟨none, [], Or.inl ⟨hnone, rfl, rfl⟩⟩
  · exact ⟨some id, rest, Or.inr ⟨skipped, id, frame, hpending, rfl, hskipped, hfirst⟩⟩

/-- The connection is replayed what its GET_MSG takes, if it stays. -/
theorem Service.replays_iff (h : Service l c) (hs : c.step frontend (.command env cmd) = .ok c₁)
    (hhead : cmd.payload.head? = some 0x0A) (halive : cmd.clientId ∈ (c.begin frontend).clients.lock.channels)
    (hsession : c.sessions.lookup cmd.clientId = some s) {taken : Option MessageId} {rest : List MessageId}
    (hpops : c.Pops env s.pending taken rest) (hcid : cmd.clientId ∈ c₁.clients.channels) :
    Lap.Replays ⟨c, frontend, .command env cmd, c₁⟩ cmd.clientId id ↔ taken = some id := by
  obtain ⟨_, hreach⟩ := h.reachable
  rcases hpops with ⟨hnone, rfl, -⟩ | ⟨skipped, id', frame, -, rfl, -, hfirst⟩
  · refine iff_of_false ?_ nofun
    rintro ⟨_, _, _, hsent⟩
    obtain ⟨env', cmd', _, heq, -, hreplaying⟩ := replay_source hreach.told hs hsent
    cases heq
    obtain ⟨frame, hmissed⟩ := hreplaying.missed
    have hmissed : (c.sessions.lookup cmd.clientId).bind (fun s => c.firstFrame env s.pending) = some (id, frame) :=
      hmissed
    rw [hsession, Option.bind_some, hnone] at hmissed
    cases hmissed
  · have hout := poll_replays hs hhead halive hsession hfirst
    rw [if_pos hcid] at hout
    constructor
    · rintro ⟨_, _, _, hsent⟩
      have hsent : _ ∈ c₁.out := hsent
      rw [hout, List.mem_singleton] at hsent
      cases hsent
      rfl
    · intro heq
      cases heq
      exact ⟨_, _, _, hout ▸ List.mem_singleton_self _⟩

/-- Whoever is gone after a turn was replayed nothing in it. -/
theorem Service.replays_stays (h : Service l c) (hs : c.step frontend e = .ok c₁)
    (hreplay : Lap.Replays ⟨c, frontend, e, c₁⟩ cid id) : cid ∈ c₁.clients.channels := by
  obtain ⟨_, hreach⟩ := h.reachable
  obtain ⟨_, _, _, hsent⟩ := hreplay
  have hsent : _ ∈ c₁.out := hsent
  obtain ⟨env, cmd, _, rfl, rfl, hreplaying⟩ := replay_source hreach.told hs hsent
  obtain ⟨frame, hmissed⟩ := hreplaying.missed
  obtain ⟨s, hsession, hfirst⟩ := Option.bind_eq_some_iff.mp hmissed
  by_contra hgone
  rw [poll_replays hs hreplaying.poll hreplaying.alive hsession hfirst, if_neg hgone] at hsent
  cases hsent

theorem Awaits.step (h : Awaits missed S cid who c) (hservice : Service l c) (hs : c.step frontend e = .ok c₁)
    (hok : e.DbOk) (hno : ∀ who', ¬Lap.Identifies ⟨c, frontend, e, c₁⟩ cid who') :
    Awaits missed (fun id => S id ∨ Lap.Replays ⟨c, frontend, e, c₁⟩ cid id) cid who c₁ := by
  have hdeals := hservice.deals hs
  have hlater := hdeals.onward.later
  obtain ⟨_, hreach⟩ := hservice.reachable
  obtain ⟨pending, hremains, hsession⟩ := h.remains
  have hhas (id : MessageId) (hid : id ∈ missed) : c₁.db.Has id → c.db.Has id := hdeals.has (h.old id hid).1
  refine ⟨Nat.lt_of_lt_of_le h.born hlater.nextId,
    fun id hid => (show (c.begin frontend).Old _ id from h.old id hid).deals hdeals, ?_⟩
  by_cases hcid : cid ∈ c₁.clients.channels
  · have hbefore : cid ∈ c.clients.channels := hlater.old cid hcid h.born
    obtain ⟨s, hs₀, hidentity, rfl⟩ := hsession hbefore
    have hs₀ : (c.begin frontend).sessions.lookup cid = some s := hs₀
    rcases hdeals.session (fun _ _ => h.born) hcid with ⟨env, cmd, rfl, rfl, hhead, halive, -⟩ |
      ⟨env, cmd, s', taken, rest, rfl, rfl, hhead, halive, hs', hpops, hs₁⟩ | ⟨hsame, hidle⟩
    · exact absurd ⟨env, cmd, rfl, rfl, hhead, rfl, halive⟩ (hno _)
    · obtain rfl : s = s' := Option.some.inj (hs₀.symm.trans hs')
      refine ⟨rest, ((hremains.pops hok h.old hpops).of_db hhas fun id => ?_), fun _ => ⟨_, hs₁, hidentity, rfl⟩⟩
      rw [hservice.replays_iff hs hhead halive hs₀ hpops hcid]
    · refine ⟨s.pending, hremains.of_db hhas fun id => or_iff_left ?_, fun _ => ⟨s, hsame.trans hs₀, hidentity, rfl⟩⟩
      rintro ⟨_, _, _, hsent⟩
      obtain ⟨env, cmd, _, rfl, rfl, hreplaying⟩ := replay_source hreach.told hs hsent
      have hnone := (hidle env cmd rfl rfl hreplaying.alive).2 hreplaying.poll
      rw [hs₀] at hnone
      cases hnone
  · exact ⟨pending, hremains.of_db hhas fun id => or_iff_left fun hreplay => hcid (hservice.replays_stays hs hreplay),
      fun h => absurd h hcid⟩

theorem Service.awaits_since {a : Lap} {m : List Lap} (h : Service (l ++ .turn a :: m.map .turn) c)
    (hok : ∀ t, .turn t ∈ l ++ .turn a :: m.map .turn → t.event.DbOk) (hstart : a.Identifies cid who)
    (hno : ∀ t ∈ m, ∀ who', ¬t.Identifies cid who') : ∃ missed : List MessageId, missed.Pairwise (· < ·) ∧
      (∀ id, id ∈ missed ↔ a.Owes who id) ∧ Awaits missed (fun id => ∃ t ∈ m, t.Replays cid id) cid who c := by
  induction m using List.reverseRecOn generalizing c with
  | nil =>
    obtain ⟨hservice, hs, rfl⟩ := h.of_turn
    obtain ⟨missed, hsorted, howes, hawaits⟩ := hservice.awaits hs (hok a (by simp)) hstart
    exact ⟨missed, hsorted, howes, by simpa using hawaits⟩
  | append_singleton m t ih =>
    rw [List.map_append, ← List.cons_append, ← List.append_assoc] at h hok
    obtain ⟨hservice, hs, rfl⟩ := h.of_turn
    obtain ⟨missed, hsorted, howes, hawaits⟩ := ih hservice (fun t ht => hok t (List.mem_append_left _ ht))
      fun t ht => hno t (List.mem_append_left _ ht)
    refine ⟨missed, hsorted, howes, ?_⟩
    have hstep := hawaits.step hservice hs (hok t (by simp)) (hno t (by simp))
    simpa [or_and_right, exists_or] using hstep

/-- A GET_MSG is answered with the first message that its client missed, was not replayed yet and is still stored;
    with none left it is passed to the radio. -/
theorem Service.answers {a s : Lap} {m : List Lap} (h : Service (l ++ .turn a :: (m.map .turn ++ .turn s :: r)) c)
    (hok : ∀ t, .turn t ∈ l ++ .turn a :: (m.map .turn ++ .turn s :: r) → t.event.DbOk) (hstart : a.Identifies cid who)
    (hno : ∀ t ∈ m, ∀ who', ¬t.Identifies cid who') (hpoll : s.Polls cid) :
    (∃ id frame, IsLeast {id | a.Owes who id ∧ s.before.db.Has id ∧ ∀ t ∈ m, ∀ id', t.Replays cid id' → id' < id} id ∧
      s.before.db.messageFrame id = some frame ∧ s.after.out = (if cid ∈ s.after.clients.channels then
        [.client cid (some who) (s.before.protocolVersion cid) (messageFrameFor (s.before.protocolVersion cid) frame)
          (.replay id)] else []) ∧ ¬s.Passes cid) ∨
    (∀ id, a.Owes who id → s.before.db.Has id → ∃ t ∈ m, ∃ id', t.Replays cid id' ∧ id ≤ id') ∧
      (∀ id, ¬s.Replays cid id) ∧ s.Passes cid := by
  rw [← List.cons_append, ← List.append_assoc] at h hok
  obtain ⟨hservice, hs⟩ := h.split
  obtain ⟨missed, hsorted, howes, hawaits⟩ :=
    hservice.awaits_since (fun t ht => hok t (List.mem_append_left _ ht)) hstart hno
  have hok : s.event.DbOk := hok s (by simp)
  obtain ⟨before, frontend, e, after⟩ := s
  obtain ⟨env, cmd, he, rfl, hhead, halive⟩ := hpoll
  obtain rfl : e = .command env cmd := he
  obtain ⟨pending, ⟨done, rfl, hdone, hserved⟩, hsession⟩ := hawaits.remains
  have hconnected : cmd.clientId ∈ (before.begin frontend).clients.channels :=
    Clients.lock_later.old _ halive hawaits.born
  obtain ⟨session, hlookup, rfl, rfl⟩ := hsession hconnected
  obtain ⟨-, hpendingSorted, hcross⟩ := List.pairwise_append.mp hsorted
  -- What is left to replay is pending and stored.
  have hleft (id : MessageId) :
      (Lap.Owes a session.identity id ∧ before.db.Has id ∧ ∀ t ∈ m, ∀ id', t.Replays cmd.clientId id' → id' < id) ↔
      id ∈ session.pending ∧ before.db.Has id := by
    rw [← howes, List.mem_append]
    constructor
    · rintro ⟨hmissed, hhas, hahead⟩
      refine ⟨hmissed.resolve_left fun hid => ?_, hhas⟩
      obtain ⟨t, ht, hreplay⟩ := (hdone id hid).resolve_right (not_not.mpr hhas)
      exact lt_irrefl id (hahead t ht id hreplay)
    · rintro ⟨hid, hhas⟩
      exact ⟨Or.inr hid, hhas, fun t ht id' hreplay => hcross id' (hserved id' ⟨t, ht, hreplay⟩) id hid⟩
  have hgone {skipped : List MessageId} (hnone : before.firstFrame env skipped = none)
      (hsub : ∀ id ∈ skipped, id ∈ session.pending) (id : MessageId) (hid : id ∈ skipped) : ¬before.db.Has id :=
    fun hhas =>
    (hawaits.old id (List.mem_append_right _ (hsub id hid))).frame hhas ((firstFrame_eq_none hok).mp hnone id hid)
  obtain ⟨taken, rest, hpops⟩ := exists_pops before env session.pending
  rcases hpops with ⟨hnone, -, -⟩ | ⟨skipped, id, frame, hpending, -, hskipped, hfirst⟩
  · refine Or.inr ⟨fun id hmissed hhas => ?_, fun id => ?_, ?_⟩
    · by_contra hno
      push Not at hno
      obtain ⟨hid, -⟩ := (hleft id).mp ⟨hmissed, hhas, hno⟩
      exact hgone hnone (fun _ h => h) id hid hhas
    · intro hreplay
      have htaken :=
        (hservice.replays_iff hs hhead halive hlookup (Or.inl ⟨hnone, rfl, rfl⟩)
          (hservice.replays_stays hs hreplay)).mp hreplay
      cases htaken
    · obtain ⟨q, hhanded, hclient, -⟩ := poll_passes hs hhead halive (by rw [nextMissed, hlookup]; exact hnone)
      exact ⟨q, hhanded, hclient⟩
  · obtain ⟨hframe, hid⟩ := firstFrame_stored hfirst
    have hout := poll_replays hs hhead halive hlookup hfirst
    refine Or.inl ⟨id, frame, ⟨(hleft id).mpr ⟨hid, NodeState.has_of_messageFrame hframe⟩, fun id' hid' => ?_⟩,
      hframe, hout, ?_⟩
    · obtain ⟨hid', hhas'⟩ := (hleft id').mp hid'
      rw [hpending] at hid' hpendingSorted
      rcases List.mem_append.mp hid' with hid' | hid'
      · exact absurd hhas' (hgone hskipped (fun _ h => hpending ▸ List.mem_append_left _ h) id' hid')
      · rcases List.mem_cons.mp hid' with rfl | hid'
        · exact le_refl _
        · exact ((List.pairwise_cons.mp (List.pairwise_append.mp hpendingSorted).2.1).1 id' hid').le
    · rintro ⟨q, hhanded, -⟩
      have hhanded : .handed q ∈ after.out := hhanded
      rw [hout] at hhanded
      split at hhanded <;> simp at hhanded

/-! ### The next connection -/

namespace Lap

/-- The turn takes the message to replay it to a connection of the client, and sends it if the connection is still
    there. -/
def Serves (s : Lap) (who : Identity) (id : MessageId) : Prop :=
  ∃ env cmd, s.event = .command env cmd ∧ (s.before.begin s.frontend).Replaying env cmd who id

/-- The turn identifies a new client, which gets a backlog by time; the message was received before that, though one
    stored before it was not. -/
def Withholds (s : Lap) (who : Identity) (id : MessageId) : Prop :=
  (∃ env cmd secs, s.event = .command env cmd ∧ s.before.db.clientCursor who = none ∧
      s.before.config.newClientBacklog = .seconds secs ∧
    ∃ m ∈ s.before.db.messages, m.id = id ∧ ∀ t, m.receivedAt = some t → t < env.unix - secs) ∧
    ∃ id' < id, s.Owes who id'

end Lap

/-- What a client was identified for, on its only connection, was served or is not stored any more, or is still
    ahead of its cursor. -/
structure Resumes (missed : List MessageId) (S : MessageId → Prop) (κ : MessageId) (cid : ClientId) (who : Identity)
    (c : Core) : Prop where
  sorted : missed.Pairwise (· < ·)
  old : ∀ id ∈ missed, c.Old (NodeState.replayableTo who · = true) id
  known : Reaches κ c.db.clients who
  behind : ∀ id, S id → Reaches id c.db.clients who
  remains : ∃ pending, Remains missed S c.db pending ∧ (∀ id ∈ pending, ¬Reaches id c.db.clients who) ∧
    ∀ cid' ∈ c.clients.channels, ∀ s, c.sessions.lookup cid' = some s → s.identity = who →
    cid' = cid ∧ s.pending = pending

/-- A turn that takes no message for the client moves its cursor only if nothing is pending. -/
theorem Deals.row (h : Deals c e c₁) (hborn : ∀ cid s, c.sessions.lookup cid = some s → cid < c.clients.nextId)
    (hno : ∀ env cmd, e = .command env cmd → cmd.payload.head? = some 0x01 →
      (cmd.localPort, appNameOf cmd.payload) = who → cmd.clientId ∉ c.clients.lock.channels)
    (hpoll : ∀ env cmd, e = .command env cmd → cmd.payload.head? = some 0x0A → cmd.clientId ∈ c.clients.lock.channels →
      c.identityOf cmd.clientId ≠ some who) (hkept : c₁.db.clients.lookup who ≠ none) :
    c₁.db.clients.lookup who = c.db.clients.lookup who ∨
    (∃ n, Raised n c.db.clients c₁.db.clients) ∧ ∃ cid ∈ c.clients.channels, ∃ s, c.sessions.lookup cid = some s ∧
      s.identity = who ∧ s.pending = [] := by
  have hquiet {b : Core} (h : Quiet c b) : b.db.clients = c.db.clients := by
    obtain ⟨-, -, -, hclients, -⟩ := h.fields
    exact hclients
  have hthen {p : Prop} {env : Env} {b b₁ : Core} (hb : Quiet c b) (h : Touched p env.unix who b b₁)
      (hafter : Quiet b₁ c₁) (hp : ¬p) : c₁.db.clients.lookup who = c.db.clients.lookup who := by
    obtain ⟨-, -, -, hclients, -⟩ := hafter.fields
    rw [hclients, (h.resolve_left fun h => hp h.1).2, hquiet hb]
  cases h with
  | @register env cmd b _ alive head hb hafter =>
    exact Or.inl (hthen hb registerSession_touched hafter fun h => hno env cmd rfl head h.1 alive)
  | @poll env cmd b _ alive head hb hafter =>
    refine Or.inl (hthen hb replayNextMissed_touched hafter fun h => hpoll env cmd rfl head alive ?_)
    rw [← hb.identityOf]
    exact h.1
  | serve _ same | hear same | rest _ same => exact Or.inl (by rw [hquiet same])
  | @store env frame msg b _ _ hb hafter =>
    obtain ⟨-, -, -, hclients, -⟩ := hafter.fields
    rw [hclients]
    have htouched : Touched _ env.unix who b (b.storeMessage env msg) := storeMessage_touched
    rcases htouched with ⟨⟨hseq, -, hcaught⟩, -⟩ | ⟨-, hsame⟩
    · rcases storeMessage_cases b env msg with ⟨-, heq⟩ | ⟨hok, -, -, -, hsessions⟩
      · exact absurd (by rw [heq]) hseq
      · -- A session that has nothing pending, of a connection that was there before.
        obtain ⟨rows, hform, hraised, -⟩ := storeMessage_form b msg hok
        obtain ⟨⟨cid, s⟩, hrow, hidentity⟩ := List.mem_map.mp (List.mem_dedup.mp hcaught)
        obtain ⟨hrow, hempty⟩ := List.mem_filter.mp hrow
        rw [hsessions] at hrow
        obtain ⟨hs, hlocked⟩ := Table.lookup_retain_eq_some.mp (Table.mem_rows.mp hrow)
        obtain ⟨-, -, -, -, hsame⟩ := hb.fields
        have hs : c.sessions.lookup cid = some s := hsame ▸ hs
        have hcid : cid ∈ b.clients.lock.channels := List.contains_iff_mem.mp hlocked
        refine Or.inr ⟨⟨b.db.messageSeq + 1, ?_⟩, cid, ?_, s, hs, hidentity, List.isEmpty_iff.mp hempty⟩
        · rw [← hquiet hb, hform]
          exact hraised
        · exact (hb.onward.trans Clients.lock_onward).later.old cid hcid (hborn cid s hs)
    · exact Or.inl (by rw [hsame, hquiet hb])
  | @purge env b _ hb hafter =>
    subst hafter
    rcases (maintain_purged b env).clients who with hsame | ⟨-, hgone, -⟩
    · exact Or.inl (by rw [hsame, hquiet hb])
    · exact absurd hgone hkept

theorem Resumes.step {κ : MessageId} (h : Resumes missed S κ cid who c) (hservice : Service l c)
    (hs : c.step frontend e = .ok c₁) (hok : e.DbOk) (hno : ∀ cid', ¬Lap.Identifies ⟨c, frontend, e, c₁⟩ cid' who)
    (hkept : ¬Lap.Forgets ⟨c, frontend, e, c₁⟩ who) :
    Resumes missed (fun id => S id ∨ Lap.Serves ⟨c, frontend, e, c₁⟩ who id) κ cid who c₁ := by
  have hdeals := hservice.deals hs
  have hlater := hdeals.onward.later
  have hborn : ∀ cid s, (c.begin frontend).sessions.lookup cid = some s → cid < (c.begin frontend).clients.nextId :=
    hservice.born
  obtain ⟨pending, hremains, hahead, hsession⟩ := h.remains
  have hhas (id : MessageId) (hid : id ∈ missed) : c₁.db.Has id → c.db.Has id := hdeals.has (h.old id hid).1
  have hold (id : MessageId) (hid : id ∈ missed) : c₁.Old (NodeState.replayableTo who · = true) id :=
    (show (c.begin frontend).Old _ id from h.old id hid).deals hdeals
  have hknown : c.db.clients.lookup who ≠ none := by
    obtain ⟨row, hrow, -⟩ := h.known
    rw [hrow]
    nofun
  have hrow : c₁.db.clients.lookup who ≠ none := fun hgone => hkept ⟨hknown, hgone⟩
  by_cases hpoll : ∃ env cmd, e = .command env cmd ∧ cmd.payload.head? = some 0x0A ∧
    cmd.clientId ∈ (c.begin frontend).clients.lock.channels ∧ c.identityOf cmd.clientId = some who
  · obtain ⟨env, cmd, rfl, hhead, halive, hwho⟩ := hpoll
    obtain ⟨s, hs₀, hidentity⟩ := Option.map_eq_some_iff.mp hwho
    have hconnected : cmd.clientId ∈ (c.begin frontend).clients.channels :=
      Clients.lock_later.old _ halive (hborn _ s hs₀)
    obtain ⟨rfl, rfl⟩ := hsession _ hconnected s hs₀ hidentity
    subst hidentity
    obtain ⟨b, hb, hafter⟩ := hdeals.of_poll hhead halive
    obtain ⟨-, hmessages, -, hclients, hsessions⟩ := hb.fields
    obtain ⟨-, -, -, hclients₁, hsessions₁⟩ := hafter.fields
    rcases replayNextMissed_pops b env cmd.clientId with ⟨hnone, -⟩ | ⟨s', taken, rest, hs', hpops, hdrained, hreaches⟩
    · rw [hsessions] at hnone
      cases hs₀.symm.trans hnone
    · obtain rfl : s = s' := Option.some.inj (hs₀.symm.trans (hsessions ▸ hs'))
      have hserves (id : MessageId) : Lap.Serves ⟨c, frontend, .command env cmd, c₁⟩ s.identity id ↔
          taken = some id := by
        constructor
        · rintro ⟨env', cmd', heq, hreplaying⟩
          cases heq
          obtain ⟨frame, hmissed⟩ := hreplaying.missed
          obtain ⟨s', hs', hfirst⟩ := Option.bind_eq_some_iff.mp hmissed
          obtain rfl : s = s' := Option.some.inj (hs₀.symm.trans hs')
          have hfirst : c.firstFrame env s.pending = some (id, frame) := hfirst
          rcases hb.pops hpops with ⟨hnone, -, -⟩ | ⟨_, _, _, -, htaken, -, hfirst'⟩
          · cases hfirst.symm.trans hnone
          · cases hfirst.symm.trans hfirst'
            exact htaken
        · rintro rfl
          rcases hb.pops hpops with ⟨-, htaken, -⟩ | ⟨_, _, frame, -, htaken, -, hfirst⟩
          · cases htaken
          · cases htaken
            exact ⟨env, cmd, rfl, hhead, halive, hwho, frame, Option.bind_eq_some_iff.mpr ⟨s, hs₀, hfirst⟩⟩
      have hpops : c.Pops env s.pending taken rest := hb.pops hpops
      have hmove (id : MessageId) : Reaches id c₁.db.clients s.identity ↔ Reaches id c.db.clients s.identity ∨
          (∃ id', taken = some id' ∧ id ≤ id') ∨ rest = [] ∧ id ≤ b.db.messageHead := by
        have hok : ∀ call, env.dbOk call = true := hok
        rw [hclients₁, hreaches, hclients]
        simp only [hok, true_and]
        exact Iff.rfl
      refine ⟨h.sorted, hold, (hmove κ).mpr (Or.inl h.known), fun id hid => ?_, rest, ?_, fun id hid hreached => ?_,
        fun cid' hcid' s' hs' hidentity' => ?_⟩
      · rcases hid with hid | hid
        · exact (hmove id).mpr (Or.inl (h.behind id hid))
        · exact (hmove id).mpr (Or.inr (Or.inl ⟨id, (hserves id).mp hid, le_refl _⟩))
      · refine (hremains.pops hok h.old hpops).of_db hhas fun id => ?_
        rw [hserves]
      · obtain ⟨done, rfl, -, -⟩ := hremains
        have hsorted := (List.pairwise_append.mp h.sorted).2.1
        rcases hpops with ⟨-, -, rfl⟩ | ⟨skipped, id', frame, hpending, rfl, -, -⟩
        · cases hid
        · rw [hpending] at hsorted hahead
          rcases (hmove id).mp hreached with hreached | ⟨_, heq, hle⟩ | ⟨rfl, -⟩
          · exact hahead id (by simp [hid]) hreached
          · cases heq
            have hlt := (List.pairwise_cons.mp (List.pairwise_append.mp hsorted).2.1).1 id hid
            exact absurd hle (not_le.mpr hlt)
          · cases hid
      · rw [hsessions₁, hdrained] at hs'
        split at hs'
        · rename_i hown
          obtain rfl := Option.some.inj hs'
          exact ⟨hown, rfl⟩
        · rename_i hother
          have hs' : c.sessions.lookup cid' = some s' := hsessions ▸ hs'
          exact absurd (hsession cid' (hlater.old cid' hcid' (hborn cid' s' hs')) s' hs' hidentity').1 hother
  · -- No message is taken for the client.
    have hserves (id : MessageId) : ¬Lap.Serves ⟨c, frontend, e, c₁⟩ who id := by
      rintro ⟨env, cmd, he, hreplaying⟩
      exact hpoll ⟨env, cmd, he, hreplaying.poll, hreplaying.alive, hreplaying.identity⟩
    have hsessions : ∀ cid' ∈ c₁.clients.channels, ∀ s, c₁.sessions.lookup cid' = some s → s.identity = who →
        cid' = cid ∧ s.pending = pending := by
      intro cid' hcid' s hs' hidentity
      rcases hdeals.session (fun s => hborn cid' s) hcid' with ⟨env, cmd, rfl, rfl, hhead, halive, hnew⟩ |
        ⟨env, cmd, s₀, taken, rest, rfl, rfl, hhead, halive, hs₀, -, hs₁⟩ | ⟨hsame, -⟩
      · obtain rfl := Option.some.inj (hs'.symm.trans hnew)
        exact absurd ⟨env, cmd, rfl, rfl, hhead, hidentity, halive⟩ (hno cmd.clientId)
      · obtain rfl := Option.some.inj (hs'.symm.trans hs₁)
        have hs₀ : c.sessions.lookup cmd.clientId = some s₀ := hs₀
        exact absurd ⟨env, cmd, rfl, hhead, halive, (identityOf_of_lookup hs₀).trans (congrArg some hidentity)⟩ hpoll
      · have hs₀ : c.sessions.lookup cid' = some s := hsame ▸ hs'
        exact hsession cid' (hlater.old cid' hcid' (hborn cid' s hs₀)) s hs₀ hidentity
    have hmoved := hdeals.row hborn (fun env cmd he hhead hwho halive => hno _ ⟨env, cmd, he, rfl, hhead, hwho, halive⟩)
      (fun env cmd he hhead halive hwho => hpoll ⟨env, cmd, he, hhead, halive, hwho⟩) hrow
    have hremains' : Remains missed (fun id => S id ∨ Lap.Serves ⟨c, frontend, e, c₁⟩ who id) c₁.db pending :=
      hremains.of_db hhas fun id => or_iff_left (hserves id)
    rcases hmoved with hsame | ⟨⟨n, hraised⟩, cid₀, hcid₀, s₀, hs₀, hidentity, hempty⟩
    · have hreaches (id : MessageId) : Reaches id c₁.db.clients who ↔ Reaches id c.db.clients who := by
        rw [Reaches, Reaches, hsame]
        rfl
      refine ⟨h.sorted, hold, (hreaches κ).mpr h.known,
        fun id hid => (hreaches id).mpr (h.behind id (hid.resolve_right (hserves id))), pending, hremains',
        fun id hid => (hreaches id).not.mpr (hahead id hid), hsessions⟩
    · obtain ⟨-, rfl⟩ := hsession cid₀ hcid₀ s₀ hs₀ hidentity
      refine ⟨h.sorted, hold, h.known.raised hraised,
        fun id hid => (h.behind id (hid.resolve_right (hserves id))).raised hraised, s₀.pending, hremains',
        ?_, hsessions⟩
      rw [hempty]
      exact List.forall_mem_nil _

theorem registerSession_reaches (hok : env.dbOk .registerAdvance = true) :
    Reaches id (c.registerSession env cmd).db.clients (cmd.localPort, appNameOf cmd.payload) ↔
      Reaches id c.db.clients (cmd.localPort, appNameOf cmd.payload) ∨
        id ≤ match c.missedBy env (cmd.localPort, appNameOf cmd.payload) with
          | [] => if env.dbOk .registerHead then c.db.messageHead else 0
          | first :: _ => first - 1 := by
  unfold registerSession
  simp only [hok, if_true]
  exact advanceClientCursor_reaches_iff

/-- A client that gets what it missed is behind that, and behind nothing else but what a backlog by time leaves out. -/
theorem owed_ahead (hok : ∀ call, env.dbOk call = true) (hdb : c.db.Ordered) {m : MessageRow} (hm : m ∈ c.db.messages)
    (hreplayable : NodeState.replayableTo who m = true) (hcursor : ¬Reaches m.id c.db.clients who)
    (hahead : (match c.missedBy env who with | [] => c.db.messageHead | first :: _ => first - 1) < m.id) :
    c.db.Owes c.config.newClientBacklog env.unix who m.id ∨ c.db.clientCursor who = none ∧
      (∃ secs, c.config.newClientBacklog = .seconds secs ∧ ∀ t, m.receivedAt = some t → t < env.unix - secs) ∧
      ∃ id < m.id, c.db.Owes c.config.newClientBacklog env.unix who id := by
  cases hrow : c.db.clients.lookup who with
  | some row =>
    have hclient : c.db.clientCursor who = some row.lastSeenId := by rw [NodeState.clientCursor, hrow]; rfl
    refine Or.inl ⟨m, hm, rfl, hreplayable, ?_⟩
    rw [hclient]
    exact not_le.mp fun hle => hcursor ⟨row, hrow, hle⟩
  | none =>
    have hclient : c.db.clientCursor who = none := by rw [NodeState.clientCursor, hrow]; rfl
    cases hmissed : c.missedBy env who with
    | nil =>
      rw [hmissed] at hahead
      exact absurd (NodeState.le_messageHead ⟨m, hm, rfl⟩) (not_le.mpr hahead)
    | cons first rest =>
      rw [hmissed] at hahead
      have hfirst : first ≤ m.id := Int.sub_one_lt_iff.mp hahead
      have hfirstOwed : c.db.Owes c.config.newClientBacklog env.unix who first :=
        (mem_missedBy (hok _) (hok _) hdb).mp (hmissed ▸ List.mem_cons_self)
      obtain ⟨m₀, hm₀, rfl, hreplayable₀, howed⟩ := hfirstOwed
      rw [hclient] at howed
      simp only [NodeState.Owes, hclient]
      cases hbacklog : c.config.newClientBacklog with
      | off =>
        rw [hbacklog] at howed
        exact howed.elim
      | messages n =>
        rw [hbacklog] at howed
        refine Or.inl
          ⟨m, hm, rfl, hreplayable,
            lt_of_le_of_lt (List.Sublist.length_le (List.monotone_filter_right _ fun m' h => ?_)) howed⟩
        simp only [Bool.and_eq_true, decide_eq_true_eq] at h ⊢
        exact ⟨lt_of_le_of_lt hfirst h.1, h.2⟩
      | seconds secs =>
        by_cases hrecent : ∃ t, m.receivedAt = some t ∧ env.unix - secs ≤ t
        · exact Or.inl ⟨m, hm, rfl, hreplayable, hrecent⟩
        · push Not at hrecent
          rw [hbacklog] at howed
          refine Or.inr ⟨trivial, ⟨secs, rfl, hrecent⟩, m₀.id, lt_of_le_of_ne hfirst fun heq => ?_, m₀, hm₀, rfl,
            hreplayable₀, howed⟩
          obtain rfl := hdb.eq_of_id hm₀ hm heq
          obtain ⟨t, ht, hle⟩ := howed
          exact absurd hle (not_le.mpr (hrecent t ht))

theorem Service.resumes (h : Service l c) (hs : c.step frontend e = .ok c₁) (hok : e.DbOk)
    (hstart : Lap.Identifies ⟨c, frontend, e, c₁⟩ cid who)
    (halone : ∀ cid' ∈ c₁.clients.channels, c₁.identityOf cid' = some who → cid' = cid) :
    ∃ (missed : List MessageId) (κ : MessageId), (∀ id, id ∈ missed ↔ Lap.Owes ⟨c, frontend, e, c₁⟩ who id) ∧
      (∀ m ∈ c.db.messages, NodeState.replayableTo who m = true → κ < m.id →
        Lap.Owes ⟨c, frontend, e, c₁⟩ who m.id ∨ Lap.Withholds ⟨c, frontend, e, c₁⟩ who m.id) ∧
      Resumes missed (fun _ => False) κ cid who c₁ := by
  obtain ⟨env, cmd, he, rfl, hhead, rfl, halive⟩ := hstart
  obtain rfl : e = .command env cmd := he
  have hok : ∀ call, env.dbOk call = true := hok
  have hordered : c.db.Ordered := h.foreign.ordered
  have hlookup := h.registered hs hhead halive
  obtain ⟨b, hb, hafter, here⟩ := (h.deals hs).of_start hhead halive
  obtain ⟨-, hmessages, -, hclients, -⟩ := hb.fields
  obtain ⟨-, -, -, hclients₁, -⟩ := hafter.fields
  have hmissed : b.missedBy env (cmd.localPort, appNameOf cmd.payload) =
      c.missedBy env (cmd.localPort, appNameOf cmd.payload) := hb.missedBy
  have hhead' : b.db.messageHead = c.db.messageHead := by
    rw [NodeState.messageHead, NodeState.messageHead, hmessages]; rfl
  have hreaches (id : MessageId) : Reaches id c₁.db.clients (cmd.localPort, appNameOf cmd.payload) ↔
      Reaches id c.db.clients (cmd.localPort, appNameOf cmd.payload) ∨
        id ≤ match c.missedBy env (cmd.localPort, appNameOf cmd.payload) with
          | [] => c.db.messageHead
          | first :: _ => first - 1 := by
    rw [hclients₁, registerSession_reaches (hok _), hclients, hmissed, if_pos (hok _), hhead']
    exact Iff.rfl
  obtain ⟨hsorted, hmissed⟩ := missedBy_spec c env (cmd.localPort, appNameOf cmd.payload) hordered
  have howes {id : MessageId} : Lap.Owes ⟨c, frontend, .command env cmd, c₁⟩ (cmd.localPort, appNameOf cmd.payload) id ↔
      id ∈ c.missedBy env (cmd.localPort, appNameOf cmd.payload) := Lap.owes_iff rfl hok hordered
  obtain ⟨row, hrow, -⟩ := (hreaches _).mpr (Or.inr (le_refl _))
  have hpast (id : MessageId) : Reaches id c₁.db.clients (cmd.localPort, appNameOf cmd.payload) ↔
      id ≤ row.lastSeenId := by
    simp [Reaches, hrow]
  have hahead : ∀ id ∈ c.missedBy env (cmd.localPort, appNameOf cmd.payload),
      ¬Reaches id c₁.db.clients (cmd.localPort, appNameOf cmd.payload) := by
    intro id hid hreached
    rcases (hreaches id).mp hreached with ⟨row', hrow', hle⟩ | hle
    · exact absurd ((hmissed id hid).2.1 row' hrow') (not_lt.mpr hle)
    · generalize c.missedBy env (cmd.localPort, appNameOf cmd.payload) = missed at hid hle hsorted
      cases missed with
      | nil => cases hid
      | cons first rest =>
        have hfirst : first - 1 < first := Int.sub_one_lt_iff.mpr (le_refl _)
        rcases List.mem_cons.mp hid with rfl | hid
        · exact absurd hle (not_le.mpr hfirst)
        · exact absurd hle (not_le.mpr (lt_trans hfirst ((List.pairwise_cons.mp hsorted).1 id hid)))
  refine ⟨c.missedBy env (cmd.localPort, appNameOf cmd.payload), row.lastSeenId, fun id => howes.symm,
    fun m hm hreplayable hpassed => ?_, hsorted, fun id hid => (h.turn hs).foreign.pending _ _ hlookup id hid,
    (hpast _).mpr (le_refl _), fun _ => False.elim,
    _, ⟨[], rfl, List.forall_mem_nil _, fun _ => False.elim⟩, hahead, fun cid' hcid' s hs' hidentity => ?_⟩
  · obtain ⟨hcursor, hfirst⟩ := not_or.mp ((hreaches m.id).not.mp ((hpast m.id).not.mpr (not_le.mpr hpassed)))
    rcases owed_ahead hok hordered hm hreplayable hcursor (not_le.mp hfirst) with howed |
      ⟨hnew, ⟨secs, hbacklog, hold⟩, id', hlt, howed⟩
    · exact Or.inl ⟨env, cmd, rfl, howed⟩
    · exact Or.inr ⟨⟨env, cmd, secs, rfl, hnew, hbacklog, m, hm, rfl, hold⟩, id', hlt, env, cmd, rfl, howed⟩
  · have hown := halone cid' hcid' ((identityOf_of_lookup hs').trans (congrArg some hidentity))
    rw [hown, hlookup] at hs'
    exact ⟨hown, congrArg Session.pending (Option.some.inj hs').symm⟩

/-- A start keeps the cursor of a client, and what is stored for it; its connections are gone. -/
theorem Resumes.boot {config : Config} {first : Attempt} {attempts : List Attempt} {κ : MessageId}
    (h : Resumes missed S κ cid who c) (hstart : (Core.new config c.db).start env first attempts = .ok c₁) :
    Resumes missed S κ cid who c₁ := by
  obtain ⟨-, hmessages, hseq, hclients, hsessions⟩ := (start_quiet hstart).fields
  have hmessages : c₁.db.messages = c.db.messages := hmessages
  have hseq : c₁.db.messageSeq = c.db.messageSeq := hseq
  have hclients : c₁.db.clients = c.db.clients := hclients
  obtain ⟨pending, hremains, hahead, -⟩ := h.remains
  refine ⟨h.sorted, fun id hid => ?_, hclients ▸ h.known, fun id hid => hclients ▸ h.behind id hid, pending,
    hremains.of_db (fun id _ => ?_) fun _ => Iff.rfl, hclients ▸ hahead, fun cid' _ s hs => ?_⟩
  · rw [Old, hmessages, hseq]
    exact h.old id hid
  · rw [NodeState.Has, hmessages]
    exact fun h => h
  · rw [hsessions] at hs
    cases hs

theorem Service.resumes_since {a : Lap} {m : List Deed} (h : Service (l ++ .turn a :: m) c)
    (hok : ∀ t, .turn t ∈ l ++ .turn a :: m → t.event.DbOk) (hstart : a.Identifies cid who)
    (halone : ∀ cid' ∈ a.after.clients.channels, a.after.identityOf cid' = some who → cid' = cid)
    (hno : ∀ t, .turn t ∈ m → (∀ cid', ¬t.Identifies cid' who) ∧ ¬t.Forgets who) :
    ∃ (missed : List MessageId) (κ : MessageId), (∀ id, id ∈ missed ↔ a.Owes who id) ∧
      (∀ m ∈ a.before.db.messages, NodeState.replayableTo who m = true → κ < m.id → a.Owes who m.id ∨
        a.Withholds who m.id) ∧
      Resumes missed (fun id => ∃ t, .turn t ∈ m ∧ t.Serves who id) κ cid who c := by
  induction m using List.reverseRecOn generalizing c with
  | nil =>
    obtain ⟨hservice, hs, rfl⟩ := h.of_turn
    simpa using hservice.resumes hs (hok a (by simp)) hstart halone
  | append_singleton m d ih =>
    rw [← List.cons_append, ← List.append_assoc] at h hok
    have hok' (t : Lap) (ht : .turn t ∈ l ++ .turn a :: m) := hok t (List.mem_append_left _ ht)
    have hno' (t : Lap) (ht : .turn t ∈ m) := hno t (List.mem_append_left _ ht)
    cases d with
    | boot =>
      obtain ⟨c', config, hservice, hboot⟩ := h.of_boot (by simp)
      obtain ⟨missed, κ, howes, hκ, hresumes⟩ := ih hservice hok' hno'
      exact ⟨missed, κ, howes, hκ, by simpa using hresumes.boot hboot⟩
    | turn t =>
      obtain ⟨hservice, hs, rfl⟩ := h.of_turn
      obtain ⟨missed, κ, howes, hκ, hresumes⟩ := ih hservice hok' hno'
      obtain ⟨hidentifies, hkept⟩ := hno t (by simp)
      refine ⟨missed, κ, howes, hκ, ?_⟩
      simpa [or_and_right, exists_or] using hresumes.step hservice hs (hok t (by simp)) hidentifies hkept

/-- The client is identified, on its only connection, and not again until it is back; its row is not purged. -/
structure Returns (a : Lap) (m : List Deed) (b : Lap) (who : Identity) : Prop where
  starts : ∃ cid, a.Identifies cid who ∧ ∀ cid' ∈ a.after.clients.channels, a.after.identityOf cid' = some who →
    cid' = cid
  between : ∀ t, .turn t ∈ m → (∀ cid, ¬t.Identifies cid who) ∧ ¬t.Forgets who
  back : ∃ cid, b.Identifies cid who

/-- With one connection at a time a client is owed, when it is back, what it was owed before and was not served, as
    long as that is stored; what else it is owed came later, or was withheld. -/
theorem Service.resumed {a b : Lap} {m r : List Deed} (h : Service (l ++ .turn a :: (m ++ .turn b :: r)) c)
    (hok : ∀ t, .turn t ∈ l ++ .turn a :: (m ++ .turn b :: r) → t.event.DbOk) (hreturns : Returns a m b who) :
    (∀ id, a.Owes who id → (b.Owes who id ↔ b.before.db.Has id ∧ ∀ t, .turn t ∈ m → ¬t.Serves who id)) ∧
    ∀ id, b.Owes who id → (∀ t, .turn t ∈ m → ∀ id', t.Serves who id' → id' < id) ∧
      (a.Owes who id ∨ a.Withholds who id ∨ ∀ id', a.Owes who id' → id' < id) := by
  rw [← List.cons_append, ← List.append_assoc] at h hok
  obtain ⟨hservice, -⟩ := h.split
  obtain ⟨ha, hs⟩ := hservice.split
  obtain ⟨⟨cid, hstart, halone⟩, hno, _, env, cmd, he, -⟩ := hreturns
  obtain ⟨missed, κ, howes, hκ, hresumes⟩ :=
    hservice.resumes_since (fun t ht => hok t (List.mem_append_left _ ht)) hstart halone hno
  obtain ⟨row, hrow, hknown⟩ := hresumes.known
  have hclient : b.before.db.clientCursor who = some row.lastSeenId := by rw [NodeState.clientCursor, hrow]; rfl
  have howed {id : MessageId} : b.Owes who id ↔
      ∃ m ∈ b.before.db.messages, m.id = id ∧ NodeState.replayableTo who m = true ∧ row.lastSeenId < id := by
    constructor
    · rintro ⟨env, cmd, -, m, hm, hid, hreplayable, hahead⟩
      rw [hclient] at hahead
      exact ⟨m, hm, hid, hreplayable, hahead⟩
    · rintro ⟨m, hm, hid, hreplayable, hahead⟩
      exact ⟨env, cmd, he, m, hm, hid, hreplayable, by rw [hclient]; exact hahead⟩
  have hpast (id : MessageId) : Reaches id b.before.db.clients who ↔ id ≤ row.lastSeenId := by
    simp [Reaches, hrow]
  obtain ⟨pending, ⟨done, rfl, hdone, hserved⟩, hahead, -⟩ := hresumes.remains
  constructor
  · intro id hid
    have hid := (howes id).mpr hid
    rw [howed]
    constructor
    · rintro ⟨m, hm, rfl, -, hlt⟩
      refine ⟨⟨m, hm, rfl⟩, fun t ht hserve => ?_⟩
      exact absurd ((hpast m.id).mp (hresumes.behind m.id ⟨t, ht, hserve⟩)) (not_le.mpr hlt)
    · rintro ⟨⟨m, hm, rfl⟩, hnot⟩
      have hpending : m.id ∈ pending := (List.mem_append.mp hid).resolve_left fun hid => by
        rcases hdone m.id hid with ⟨t, ht, hserve⟩ | hgone
        · exact hnot t ht hserve
        · exact hgone ⟨m, hm, rfl⟩
      exact ⟨m, hm, rfl, (hresumes.old m.id hid).2 m hm rfl, not_le.mp ((hpast m.id).not.mp (hahead m.id hpending))⟩
  · intro id hid
    obtain ⟨m, hm, rfl, hreplayable, hlt⟩ := howed.mp hid
    refine ⟨fun t ht id' hserve => lt_of_le_of_lt ((hpast id').mp (hresumes.behind id' ⟨t, ht, hserve⟩)) hlt, ?_⟩
    -- The message was there already when the client was identified first, or came later than all that it was owed then.
    rcases le_or_gt m.id a.before.db.messageSeq with hbefore | hlater
    · have hold : (a.before.begin a.frontend).Old (· ∈ a.before.db.messages) m.id := ⟨hbefore, fun m hm _ => hm⟩
      obtain ⟨-, hstill⟩ : b.before.Old (· ∈ a.before.db.messages) m.id := hservice.old (hold.deals (ha.deals hs))
      rcases hκ m (hstill m hm rfl) hreplayable (lt_of_le_of_lt hknown hlt) with howed | hwithheld
      · exact Or.inl howed
      · exact Or.inr (Or.inl hwithheld)
    · refine Or.inr (Or.inr fun id' hid' => lt_of_le_of_lt ?_ hlater)
      obtain ⟨_, _, _, m', hm', rfl, -⟩ := hid'
      exact ha.foreign.ordered.bounded m'.id ⟨m', hm', rfl⟩

/-- A client is replayed what it missed, in order, and is passed to the radio when nothing is left of that; with one
    connection at a time it goes on where it left off. -/
theorem missed_replayed (h : Service l c) (hok : ∀ t, .turn t ∈ l → t.event.DbOk) :
    (∀ l₁ a (m : List Lap) s r cid who, l = l₁ ++ .turn a :: (m.map .turn ++ .turn s :: r) → a.Identifies cid who →
      (∀ t ∈ m, ∀ who', ¬t.Identifies cid who') → s.Polls cid →
      (∃ id frame, IsLeast {id | a.Owes who id ∧ s.before.db.Has id ∧ ∀ t ∈ m, ∀ id', t.Replays cid id' → id' < id} id ∧
        s.before.db.messageFrame id = some frame ∧ s.after.out = (if cid ∈ s.after.clients.channels then
          [.client cid (some who) (s.before.protocolVersion cid)
            (messageFrameFor (s.before.protocolVersion cid) frame) (.replay id)] else []) ∧ ¬s.Passes cid) ∨
      (∀ id, a.Owes who id → s.before.db.Has id → ∃ t ∈ m, ∃ id', t.Replays cid id' ∧ id ≤ id') ∧
        (∀ id, ¬s.Replays cid id) ∧ s.Passes cid) ∧
    ∀ l₁ a m b r who, l = l₁ ++ .turn a :: (m ++ .turn b :: r) → Returns a m b who →
      (∀ id, a.Owes who id → (b.Owes who id ↔ b.before.db.Has id ∧ ∀ t, .turn t ∈ m → ¬t.Serves who id)) ∧
      ∀ id, b.Owes who id → (∀ t, .turn t ∈ m → ∀ id', t.Serves who id' → id' < id) ∧
        (a.Owes who id ∨ a.Withholds who id ∨ ∀ id', a.Owes who id' → id' < id) := by
  constructor
  · rintro l₁ a m s r cid who rfl hstart hno hpoll
    exact h.answers hok hstart hno hpoll
  · rintro l₁ a m b r who rfl hreturns
    exact h.resumed hok hreturns

/-! ### A client that comes back -/

/-- A message, once it is asked for. -/
def message : Bytes := [0x11, 0, 0, 0, 0, 0, 0, 0, 0, 0, 0]

/-- Messages come in on some days; on day 2 the client `a` connects and asks for one, and then is back to ask for
    another. -/
def comeback (backlog : Backlog) (days : List Int) (during : List (List FrontendOp)) :
    Except Panic (Core × List Lap × Core × Core × Core × Core × Core) := do
  let c₀ ← (Core.new ⟨.off, true, false, ⟨0, 0, 0, 0⟩, backlog⟩ .empty).start sound
    ⟨true, [.frame [0x05], .frame [0x0D, 3, 0, 1]], sound, sound, { sound with writerOpen := false }⟩ []
  let (l, c₁) ← c₀.laps (days.map fun day => ([], .radio (soundOn day) message))
  let c₂ ← c₁.step [[.connect]] (.command (soundOn 2) ⟨1, 5000, [0x01, 1, 0, 0, 0, 0, 0, 0, 0x61]⟩)
  let c₃ ← c₂.step during (pollOf 1)
  let c₄ ← c₃.step [[.disconnect 1, .connect]] (startOf 2)
  let c₅ ← c₄.step [] (pollOf 2)
  return (c₀, l, c₁, c₂, c₃, c₄, c₅)

theorem comeback_service (backlog : Backlog) (days : List Int) (during : List (List FrontendOp))
    (missed stored replayed : List MessageId)
    (hrun : Except.Holds (comeback backlog days during) fun (_, _, c₁, c₂, c₃, _, c₅) =>
      (1 ∈ (c₁.begin [[.connect]]).clients.lock.channels ∧
        2 ∈ (c₃.begin [[.disconnect 1, .connect]]).clients.lock.channels) ∧
      (c₂.clients.channels = [1] ∧ (c₃.db.clients.lookup (5000, [0x61])).isSome ∧
        (c₂.nextMissed sound 1).map (·.1) = some 1) ∧
      (c₁.missedBy (soundOn 2) (5000, [0x61]) = missed ∧ c₃.db.messages.map (·.id) = stored ∧
        c₃.out.filterMap replayedId = replayed) ∧
      .client 2 (some (5000, [0x61])) 0 (messageFrameFor 0 message) (.replay 2) ∈ c₅.out) :
    ∃ l a s b t c, Service (l ++ .turn a :: ([.turn s] ++ .turn b :: [.turn t])) c ∧
      (∀ u, .turn u ∈ l ++ .turn a :: ([.turn s] ++ .turn b :: [.turn t]) → u.event.DbOk) ∧
      Returns a [.turn s] b (5000, [0x61]) ∧
      (∀ id, a.Owes (5000, [0x61]) id ↔ id ∈ missed) ∧ (∀ id, b.before.db.Has id ↔ id ∈ stored) ∧
      (∀ id, s.Serves (5000, [0x61]) id → id = 1) ∧ (∀ id, (∃ cid, s.Replays cid id) ↔ id ∈ replayed) ∧
      t.Replays 2 2 := by
  obtain ⟨⟨c₀, l, c₁, c₂, c₃, c₄, c₅⟩, hrun, ⟨halive, halive'⟩, ⟨halone, hkept, hnext⟩, ⟨rfl, rfl, rfl⟩, hlast⟩ := hrun
  obtain ⟨_, hboot, hrun⟩ := Except.of_bind_eq_ok hrun
  obtain ⟨⟨_, _⟩, hlaps, hrun⟩ := Except.of_bind_eq_ok hrun
  obtain ⟨_, h₂, hrun⟩ := Except.of_bind_eq_ok hrun
  obtain ⟨_, h₃, hrun⟩ := Except.of_bind_eq_ok hrun
  obtain ⟨_, h₄, hrun⟩ := Except.of_bind_eq_ok hrun
  obtain ⟨_, h₅, hrun⟩ := Except.of_bind_eq_ok hrun
  cases hrun
  obtain ⟨htrace, hturns⟩ := Trace.of_laps hlaps
  obtain ⟨l₁, hbefore, hok⟩ : ∃ l₁, Service l₁ c₁ ∧ ∀ u, .turn u ∈ l₁ → u.event.DbOk := by
    refine ⟨_, (Service.install hboot).trace htrace, fun u hu => ?_⟩
    simp only [List.singleton_append, List.mem_cons, List.mem_map, reduceCtorEq, false_or, Deed.turn.injEq,
      exists_eq_right] at hu
    have hevent := hturns u hu
    simp only [List.mem_map, Prod.mk.injEq] at hevent
    obtain ⟨day, -, -, hevent⟩ := hevent
    rw [← hevent]
    exact fun _ => rfl
  have hall := (((hbefore.turn h₂).turn h₃).turn h₄).turn h₅
  refine ⟨l₁, ⟨c₁, [[.connect]], .command (soundOn 2) ⟨1, 5000, [0x01, 1, 0, 0, 0, 0, 0, 0, 0x61]⟩, c₂⟩,
    ⟨c₂, during, pollOf 1, c₃⟩, ⟨c₃, [[.disconnect 1, .connect]], startOf 2, c₄⟩, ⟨c₄, [], pollOf 2, c₅⟩, c₅,
    by simpa using hall, fun u hu => ?_,
    ⟨⟨1, ⟨_, _, rfl, rfl, rfl, rfl, halive⟩, fun cid hcid _ => ?_⟩, fun u hu => ?_, 2, _, _, rfl, rfl, rfl,
      rfl, halive'⟩,
    fun id => Lap.owes_iff rfl (fun _ => rfl) hbefore.foreign.ordered, fun id => List.mem_map.symm, ?_, fun id => ?_,
    ⟨_, _, _, hlast⟩⟩
  · simp only [List.mem_append, List.mem_cons, List.not_mem_nil, or_false, Deed.turn.injEq] at hu
    rcases hu with hu | rfl | rfl | rfl | rfl
    · exact hok u hu
    all_goals exact fun _ => rfl
  · have hcid : cid ∈ c₂.clients.channels := hcid
    rw [halone] at hcid
    exact List.mem_singleton.mp hcid
  · cases List.mem_singleton.mp hu
    refine ⟨?_, fun hforgets => ?_⟩
    · rintro cid ⟨_, _, he, -, hhead, -⟩
      cases he
      cases hhead
    · exact absurd hforgets.2 (Option.isSome_iff_ne_none.mp hkept)
  · rintro id ⟨env, cmd, he, hreplaying⟩
    cases he
    obtain ⟨frame, hmissed⟩ := hreplaying.missed
    have hmissed : c₂.nextMissed sound 1 = some (id, frame) := hmissed
    rw [hmissed] at hnext
    exact Option.some.inj hnext
  · rw [List.mem_filterMap]
    constructor
    · rintro ⟨cid, _, _, _, hsent⟩
      exact ⟨_, hsent, rfl⟩
    · rintro ⟨x, hx, hid⟩
      unfold replayedId at hid
      split at hid
      · cases hid
        exact ⟨_, _, _, _, hx⟩
      · cases hid

/-- The client is replayed the first message, and is owed the second when it is back. -/
theorem missed_replayed_comeback : ∃ l a s b t c, Service (l ++ .turn a :: ([.turn s] ++ .turn b :: [.turn t])) c ∧
    (∀ id, a.Owes (5000, [0x61]) id ↔ id = 1 ∨ id = 2) ∧ b.Owes (5000, [0x61]) 2 := by
  obtain ⟨l, a, s, b, t, c, h, hok, hreturns, howes, hhas, hserves, -⟩ :=
    comeback_service (.messages 5) [0, 0] [] [1, 2] [1, 2] [1] (by decide +kernel)
  obtain ⟨-, hresumed⟩ := missed_replayed h hok
  refine ⟨l, a, s, b, t, c, h, by simpa using howes, ?_⟩
  obtain ⟨howed, -⟩ := hresumed l a [.turn s] b [.turn t] _ rfl hreturns
  refine (howed 2 ((howes 2).mpr (by simp))).mpr ⟨(hhas 2).mpr (by simp), fun u hu hserve => ?_⟩
  cases List.mem_singleton.mp hu
  exact absurd (hserves 2 hserve) (by decide)

/-- A client that missed a message, which is stored and was not replayed to it, is replayed another one when it is
    back: the clock was set back, and the backlog by time left that one out; or the connection was gone when the
    message was sent. -/
theorem missed_passed_over :
    (∃ l a s b t c, Service (l ++ .turn a :: ([.turn s] ++ .turn b :: [.turn t])) c ∧
      (∀ u, .turn u ∈ l ++ .turn a :: ([.turn s] ++ .turn b :: [.turn t]) → u.event.DbOk) ∧
      Returns a [.turn s] b (5000, [0x61]) ∧
      IsLeast {id | a.Owes (5000, [0x61]) id ∧ b.before.db.Has id ∧ ¬∃ cid, s.Replays cid id} 3 ∧ t.Replays 2 2) ∧
    ∃ l a s b t c, Service (l ++ .turn a :: ([.turn s] ++ .turn b :: [.turn t])) c ∧
      (∀ u, .turn u ∈ l ++ .turn a :: ([.turn s] ++ .turn b :: [.turn t]) → u.event.DbOk) ∧
      Returns a [.turn s] b (5000, [0x61]) ∧
      IsLeast {id | a.Owes (5000, [0x61]) id ∧ b.before.db.Has id ∧ ¬∃ cid, s.Replays cid id} 1 ∧ t.Replays 2 2 := by
  constructor
  · obtain ⟨l, a, s, b, t, c, h, hok, hreturns, howes, hhas, -, hreplays, hlast⟩ :=
      comeback_service (.seconds 86400) [2, 0, 2] [] [1, 3] [1, 2, 3] [1] (by decide +kernel)
    refine ⟨l, a, s, b, t, c, h, hok, hreturns, ?_, hlast⟩
    simp [howes, hhas, hreplays, IsLeast, lowerBounds]
  · obtain ⟨l, a, s, b, t, c, h, hok, hreturns, howes, hhas, -, hreplays, hlast⟩ :=
      comeback_service (.messages 5) [0, 0] [[], [.disconnect 1]] [1, 2] [1, 2] [] (by decide +kernel)
    refine ⟨l, a, s, b, t, c, h, hok, hreturns, ?_, hlast⟩
    simp [howes, hhas, hreplays, IsLeast, lowerBounds]

end

end
end Core
end CoreSplitter
