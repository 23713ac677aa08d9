import CoreSplitter.Theorems.Resume

/-! What a client missed when reads of the database fail. -/

namespace CoreSplitter
open Bytes

namespace Core

/-- The functions that read what a client missed, and move its cursor. -/
inductive Recall
  | register (cmd : ClientCommand)
  | replay (cid : ClientId)

namespace Recall

def run (c : Core) (env : Env) : Recall → Core
  | .register cmd => c.registerSession env cmd
  | .replay cid => (c.replayNextMissed env cid).2

def identity (c : Core) : Recall → Option Identity
  | .register cmd => some (cmd.localPort, appNameOf cmd.payload)
  | .replay cid => c.identityOf cid

/-- The cursor ends below each message that the client is owed, unless that was sent to it: then, or before, which
    is what `got` says. -/
def Keeps (c : Core) (env : Env) (got : MessageId → Prop) (r : Recall) : Prop :=
  ∀ who ∈ r.identity c, ∃ es, (r.run c env).out = c.out ++ es ∧
    ∀ id, c.db.Owes c.config.newClientBacklog env.unix who id → ¬got id →
      (∃ cid name version frame, .client cid name version frame (.replay id) ∈ es) ∨
      ∀ cursor, (r.run c env).db.clientCursor who = some cursor → cursor < id

end Recall

/-- The frame of the message cannot be read. -/
def unread (c : Core) (env : Env) (id : MessageId) : Bool :=
  !env.dbOk (.replayFrame id) || (c.db.messageFrame id).isNone

/-- The first message that is pending and can be read. -/
def taken (c : Core) (env : Env) (pending : List MessageId) : Option MessageId := (c.firstFrame env pending).map (·.1)

/-- What is pending after it. -/
def untaken (c : Core) (env : Env) (pending : List MessageId) : List MessageId :=
  (pending.dropWhile (c.unread env)).tail

/-- The cursor is moved over the message, which is not sent. At the start of an application, because what the client
    missed cannot be read, and the head can. At a GET_MSG, because the message is before the one that is taken, or
    because nothing is pending any more. -/
def Recall.Passes (c : Core) (env : Env) (id : MessageId) : Recall → Prop
  | .register _ => (env.dbOk .registerCursor = false ∨ env.dbOk .registerIds = false) ∧ env.dbOk .registerHead = true ∧
      env.dbOk .registerAdvance = true
  | .replay cid => ∃ s, c.sessions.lookup cid = some s ∧
      ¬(c.taken env s.pending = some id ∧ cid ∈ c.clients.lock.channels) ∧
      (env.dbOk .replayAdvance = true ∧ (∃ id' ∈ c.taken env s.pending, id ≤ id') ∨
        env.dbOk .replayHead = true ∧ env.dbOk .replayCatchUp = true ∧ c.untaken env s.pending = [])

section
variable {c : Core} {env : Env} {cmd : ClientCommand} {cid : ClientId} {who : Identity} {id : MessageId}
  {s : Session} {pending rest skipped : List MessageId} {frame : Bytes} {got : MessageId → Prop} {r : Recall}

theorem below_iff : (∀ cursor, c.db.clientCursor who = some cursor → cursor < id) ↔ ¬Reaches id c.db.clients who := by
  unfold Reaches NodeState.clientCursor
  cases c.db.clients.lookup who with
  | none => simp
  | some row => simp

theorem not_reaches_of_owes {backlog : Backlog} {now : Int} (h : c.db.Owes backlog now who id) :
    ¬Reaches id c.db.clients who := by
  obtain ⟨m, -, -, -, howed⟩ := h
  rw [← below_iff]
  intro cursor hcursor
  rwa [hcursor] at howed

theorem has_of_owes {backlog : Backlog} {now : Int} (h : c.db.Owes backlog now who id) : c.db.Has id := by
  obtain ⟨m, hm, hid, -⟩ := h
  exact ⟨m, hm, hid⟩

/-! ### The start of an application -/

theorem missedBy_unread (h : env.dbOk .registerCursor = false ∨ env.dbOk .registerIds = false) :
    c.missedBy env who = [] := by
  unfold missedBy
  rcases h with h | h
  · simp [h]
  · simp [h]

theorem registerSession_out : (c.registerSession env cmd).out = c.out := by
  unfold registerSession
  dsimp only
  split <;> rfl

/-- Where the cursor ends. -/
theorem register_reaches (hdb : c.db.Ordered) (hpos : ∀ id, c.db.Has id → 0 < id)
    (howed : c.db.Owes c.config.newClientBacklog env.unix (cmd.localPort, appNameOf cmd.payload) id) :
    Reaches id (c.registerSession env cmd).db.clients (cmd.localPort, appNameOf cmd.payload) ↔
      (Recall.register cmd).Passes c env id := by
  have hbefore := not_reaches_of_owes howed
  by_cases hadvance : env.dbOk .registerAdvance = true
  · rw [registerSession_reaches hadvance, or_iff_right hbefore]
    by_cases hread : env.dbOk .registerCursor = false ∨ env.dbOk .registerIds = false
    · rw [missedBy_unread hread]
      by_cases hhead : env.dbOk .registerHead = true
      · simp only [hhead, if_true]
        exact iff_of_true (NodeState.le_messageHead (has_of_owes howed)) ⟨hread, hhead, hadvance⟩
      · simp only [hhead, Bool.false_eq_true, if_false]
        exact iff_of_false (not_le.mpr (hpos id (has_of_owes howed))) fun h => hhead h.2.1
    · refine iff_of_false ?_ fun h => hread h.1
      have hok : env.dbOk .registerCursor = true ∧ env.dbOk .registerIds = true := by simpa using hread
      have hmem := (mem_missedBy hok.1 hok.2 hdb).mpr howed
      obtain ⟨hsorted, -⟩ := missedBy_spec c env (cmd.localPort, appNameOf cmd.payload) hdb
      cases hmissed : c.missedBy env (cmd.localPort, appNameOf cmd.payload) with
      | nil => rw [hmissed] at hmem; cases hmem
      | cons first rest =>
        rw [hmissed] at hmem hsorted
        have hfirst : first ≤ id := by
          rcases List.mem_cons.mp hmem with rfl | hmem
          · exact le_refl _
          · exact le_of_lt (List.rel_of_pairwise_cons hsorted hmem)
        exact not_le.mpr (Int.sub_one_lt_iff.mpr hfirst)
  · refine iff_of_false ?_ fun h => hadvance h.2.2
    have hsame : (c.registerSession env cmd).db.clients = c.db.clients := by
      unfold registerSession
      simp [hadvance]
    rwa [hsame]

/-! ### A GET_MSG -/

theorem unread_iff : c.unread env id = true ↔ ∀ frame, env.dbOk (.replayFrame id) = true →
    c.db.messageFrame id ≠ some frame := by
  cases hframe : c.db.messageFrame id <;> cases hok : env.dbOk (.replayFrame id) <;> simp [unread, hframe, hok]

theorem unread_of_firstFrame (h : c.firstFrame env pending = none) (hid : id ∈ pending) : c.unread env id = true := by
  rw [unread_iff]
  intro frame hok hframe
  have hnone := List.findSome?_eq_none_iff.mp h id hid
  rw [if_pos hok, hframe] at hnone
  cases hnone

theorem read_of_firstFrame (h : c.firstFrame env pending = some (id, frame)) : c.unread env id = false := by
  obtain ⟨id', -, heq⟩ := List.exists_of_findSome?_eq_some h
  split at heq
  · rename_i hok
    obtain ⟨frame', hframe, heq⟩ := Option.map_eq_some_iff.mp heq
    cases heq
    simp [unread, hok, hframe]
  · cases heq

theorem Pops.eq {t : Option MessageId} (h : c.Pops env pending t rest) :
    t = c.taken env pending ∧ rest = c.untaken env pending := by
  rcases h with ⟨hnone, rfl, rfl⟩ | ⟨skipped, id, frame, rfl, rfl, hskipped, hfirst⟩
  · refine ⟨by rw [taken, hnone]; rfl, ?_⟩
    rw [untaken, List.dropWhile_eq_nil_iff.mpr fun id hid => unread_of_firstFrame hnone hid]
    rfl
  · refine ⟨by rw [taken, hfirst]; rfl, ?_⟩
    rw [untaken, List.dropWhile_append_of_pos fun id hid => unread_of_firstFrame hskipped hid,
      List.dropWhile_cons_of_neg (by simp [read_of_firstFrame hfirst])]
    rfl

theorem replayNextMissed_clients (hs : c.sessions.lookup cid = some s)
    (hfirst : c.firstFrame env s.pending = some (id, frame)) :
    (c.replayNextMissed env cid).2.clients = c.clients.lock := by
  have hlock (b : Core) (payload : Bytes) (why : Why) : (b.sendToClient cid payload why).clients = b.clients.lock := by
    unfold sendToClient
    dsimp only
    split <;> rfl
  rcases replayPending_cases c env cid s s.pending with ⟨hnone, -⟩ | ⟨skipped, id', rest, frame', -, -, hfirst', heq⟩
  · rw [hfirst] at hnone
    cases hnone
  · have hserved : (c.served env cid s id' frame' rest).clients = c.clients.lock := by
      have hsent := hlock (c.setPending cid s rest) frame' (.replay id')
      unfold served
      dsimp only
      split <;> exact hsent
    unfold replayNextMissed
    simp only [hs, heq]
    split <;> exact hserved

/-- What a GET_MSG sends: the message that it takes. -/
theorem replay_sends (env : Env) (hs : c.sessions.lookup cid = some s) :
    ∃ es, (c.replayNextMissed env cid).2.out = c.out ++ es ∧
    ∀ id, (∃ cid' name version frame, .client cid' name version frame (.replay id) ∈ es) ↔
      c.taken env s.pending = some id ∧ cid ∈ c.clients.lock.channels := by
  cases hfirst : c.firstFrame env s.pending with
  | none =>
    have hnone : c.nextMissed env cid = none := by simp [nextMissed, hs, hfirst]
    refine ⟨[], by rw [(replayNextMissed_passes hnone).2, List.append_nil], fun id => ?_⟩
    simp [taken, hfirst]
  | some p =>
    obtain ⟨id, frame⟩ := p
    refine ⟨_, (replayNextMissed_serves hs hfirst).2, fun id' => ?_⟩
    rw [replayNextMissed_clients hs hfirst, taken, hfirst]
    split
    · rename_i hcid
      simp only [List.mem_singleton, Effect.client.injEq, Why.replay.injEq, Option.map_some, Option.some.injEq]
      constructor
      · rintro ⟨_, _, _, _, _, _, _, _, hid⟩
        exact ⟨hid.symm, hcid⟩
      · intro h
        exact ⟨_, _, _, _, rfl, rfl, rfl, rfl, h.1.symm⟩
    · rename_i hcid
      simp [hcid]

/-- Where the cursor ends. -/
theorem replay_reaches (hs : c.sessions.lookup cid = some s) (hcursor : ¬Reaches id c.db.clients s.identity)
    (hhas : c.db.Has id) : Reaches id (c.replayNextMissed env cid).2.db.clients s.identity ↔
      env.dbOk .replayAdvance = true ∧ (∃ id' ∈ c.taken env s.pending, id ≤ id') ∨
        env.dbOk .replayHead = true ∧ env.dbOk .replayCatchUp = true ∧ c.untaken env s.pending = [] := by
  rcases replayNextMissed_pops c env cid with ⟨hnone, -⟩ | ⟨s', t, rest, hs', hpops, -, hreaches⟩
  · rw [hs] at hnone
    cases hnone
  · cases hs.symm.trans hs'
    obtain ⟨rfl, rfl⟩ := hpops.eq
    rw [hreaches, or_iff_right hcursor]
    simp only [Option.mem_def, NodeState.le_messageHead hhas, and_true]

/-- Whatever calls fail, the cursor ends below each message that is owed and was not sent, exactly when it is not moved
    over such a message. -/
theorem missed_kept_iff (hdb : c.db.Ordered) (hpos : ∀ id, c.db.Has id → 0 < id) : r.Keeps c env got ↔
    ∀ who ∈ r.identity c, ∀ id, c.db.Owes c.config.newClientBacklog env.unix who id → ¬got id → ¬r.Passes c env id := by
  unfold Recall.Keeps
  refine forall₂_congr fun who hwho => ?_
  simp only [below_iff]
  cases r with
  | register cmd =>
    cases hwho
    constructor
    · rintro ⟨es, hout, hkept⟩ id howed hgot hpasses
      have hnil : es = [] := List.append_right_eq_self.mp (hout.symm.trans registerSession_out)
      rcases hkept id howed hgot with ⟨_, _, _, _, hmem⟩ | hcursor
      · rw [hnil] at hmem
        cases hmem
      · exact hcursor ((register_reaches hdb hpos howed).mpr hpasses)
    · intro h
      refine ⟨[], registerSession_out.trans (List.append_nil _).symm, fun id howed hgot => Or.inr fun hreaches => ?_⟩
      exact h id howed hgot ((register_reaches hdb hpos howed).mp hreaches)
  | replay cid =>
    obtain ⟨s, hs, rfl⟩ := Option.map_eq_some_iff.mp hwho
    obtain ⟨es, hout, hsends⟩ := replay_sends env hs
    constructor
    · rintro ⟨es', hout', hkept⟩ id howed hgot ⟨s', hs', hunsent, hpasses⟩
      cases hs.symm.trans hs'
      obtain rfl : es' = es := List.append_cancel_left (hout'.symm.trans hout)
      rcases hkept id howed hgot with hsent | hcursor
      · exact hunsent ((hsends id).mp hsent)
      · exact hcursor ((replay_reaches hs (not_reaches_of_owes howed) (has_of_owes howed)).mpr hpasses)
    · intro h
      refine ⟨es, hout, fun id howed hgot => ?_⟩
      rw [hsends]
      refine or_iff_not_imp_left.mpr fun hunsent hreaches => h id howed hgot ⟨s, hs, hunsent, ?_⟩
      exact (replay_reaches hs (not_reaches_of_owes howed) (has_of_owes howed)).mp hreaches

end

/-- The APP_START of the client `a`, which has not seen message 1. -/
def identify : ClientCommand := ⟨1, 5000, [0x01, 1, 0, 0, 0, 0, 0, 0, 0x61]⟩

/-- Surroundings in which one call fails. -/
def failing (call : DbCall) : Env := { sound with dbOk := fun call' => call' != call }

section
variable {c : Core} {backlog : Backlog} {now : Int}

theorem unseen_positive (h : c.db.messages = unseen.messages) (hseq : c.db.messageSeq = 1) :
    c.db.Ordered ∧ ∀ id, c.db.Has id → 0 < id := by
  have hid (m : MessageRow) (hm : m ∈ c.db.messages) : m.id = 1 := by
    rw [h] at hm
    rw [List.mem_singleton.mp hm]
  refine ⟨⟨?_, ?_⟩, ?_⟩
  · rw [h]
    exact List.pairwise_singleton _ _
  · rintro id ⟨m, hm, rfl⟩
    rw [hid m hm, hseq]
  · rintro id ⟨m, hm, rfl⟩
    rw [hid m hm]
    decide

theorem owes_unseen (h : c.db.messages = unseen.messages) (hcursor : c.db.clientCursor (5000, [0x61]) = some 0) :
    c.db.Owes backlog now (5000, [0x61]) 1 := by
  unfold NodeState.Owes
  rw [h, hcursor]
  refine ⟨_, List.mem_singleton_self _, rfl, rfl, ?_⟩
  exact Int.zero_lt_one

end

/-- Surroundings in which neither what was missed nor the head can be read. -/
def unreadable : Env := { sound with
  dbOk := fun call => decide (call ∉ [.registerIds, .registerHead, .replayFrame 1, .replayHead]) }

/-- Message 1 stays owed when it cannot be read, neither at the APP_START nor at the GET_MSG, and the head cannot
    either. -/
theorem missed_kept_identified : ∃ c c₁, behind = .ok c ∧ c.step [[.connect]] (.command sound identify) = .ok c₁ ∧
    (c.db.Owes c.config.newClientBacklog 0 (5000, [0x61]) 1 ∧
      (Recall.register identify).Keeps c unreadable (fun _ => False)) ∧
    c₁.db.Owes c₁.config.newClientBacklog 0 (5000, [0x61]) 1 ∧ c₁.identityOf 1 = some (5000, [0x61]) ∧
      (Recall.replay 1).Keeps c₁ unreadable (fun _ => False) := by
  have hrun : Except.Holds (do
      let c ← behind
      let c₁ ← c.step [[.connect]] (.command sound identify)
      return (c, c₁)) fun (c, c₁) =>
        (c.db.messages = unseen.messages ∧ c.db.messageSeq = 1 ∧ c.db.clientCursor (5000, [0x61]) = some 0) ∧
        (c₁.db.messages = unseen.messages ∧ c₁.db.messageSeq = 1 ∧ c₁.db.clientCursor (5000, [0x61]) = some 0) ∧
        c₁.identityOf 1 = some (5000, [0x61]) ∧ ∀ s ∈ c₁.sessions.lookup 1, c₁.taken unreadable s.pending = none := by
    decide +kernel
  obtain ⟨⟨c, c₁⟩, hrun, ⟨hmessages, hseq, hcursor⟩, ⟨hmessages₁, hseq₁, hcursor₁⟩, hwho, htaken⟩ := hrun
  obtain ⟨_, hc, hrun⟩ := Except.of_bind_eq_ok hrun
  obtain ⟨_, hstep, hrun⟩ := Except.of_bind_eq_ok hrun
  cases hrun
  obtain ⟨hdb, hpos⟩ := unseen_positive hmessages hseq
  obtain ⟨hdb₁, hpos₁⟩ := unseen_positive hmessages₁ hseq₁
  refine ⟨c, c₁, hc, hstep, ⟨owes_unseen hmessages hcursor, ?_⟩, owes_unseen hmessages₁ hcursor₁, hwho, ?_⟩
  · refine (missed_kept_iff hdb hpos).mpr fun who _ id _ _ hpasses => ?_
    exact absurd hpasses.2.1 (by decide)
  · refine (missed_kept_iff hdb₁ hpos₁).mpr fun who _ id _ _ hpasses => ?_
    obtain ⟨s, hs, -, ⟨-, id', hid', -⟩ | ⟨hhead, -⟩⟩ := hpasses
    · rw [htaken s hs] at hid'
      cases hid'
    · exact absurd hhead (by decide)

/-- The message is passed over when the ids of what was missed cannot be read, and when its frame cannot be. -/
theorem missed_lost_unread :
    ∃ c c₁, behind = .ok c ∧ ¬(Recall.register identify).Keeps c (failing .registerIds) (fun _ => False) ∧
    c.step [[.connect]] (.command sound identify) = .ok c₁ ∧
      ¬(Recall.replay 1).Keeps c₁ (failing (.replayFrame 1)) (fun _ => False) := by
  have hrun : Except.Holds (do
      let c ← behind
      let c₁ ← c.step [[.connect]] (.command sound identify)
      return (c, c₁)) fun (c, c₁) =>
        (c.db.messages = unseen.messages ∧ c.db.clientCursor (5000, [0x61]) = some 0 ∧
          (c.registerSession (failing .registerIds) identify).out = c.out ∧
          (c.registerSession (failing .registerIds) identify).db.clientCursor (5000, [0x61]) = some 1) ∧
        c₁.db.messages = unseen.messages ∧ c₁.db.clientCursor (5000, [0x61]) = some 0 ∧
        c₁.identityOf 1 = some (5000, [0x61]) ∧ (c₁.replayNextMissed (failing (.replayFrame 1)) 1).2.out = c₁.out ∧
          (c₁.replayNextMissed (failing (.replayFrame 1)) 1).2.db.clientCursor (5000, [0x61]) = some 1 := by
    decide +kernel
  obtain ⟨⟨c, c₁⟩, hrun, ⟨hmessages, hcursor, hout, hmoved⟩, hmessages₁, hcursor₁, hwho₁, hout₁, hmoved₁⟩ := hrun
  obtain ⟨_, hc, hrun⟩ := Except.of_bind_eq_ok hrun
  obtain ⟨_, hstep, hrun⟩ := Except.of_bind_eq_ok hrun
  cases hrun
  refine ⟨c, c₁, hc, fun hkept => ?_, hstep, fun hkept => ?_⟩
  · have hname : appNameOf identify.payload = [0x61] := by decide +kernel
    obtain ⟨es, hes, hkept⟩ := hkept (5000, [0x61]) (congrArg (fun name => some (5000, name)) hname)
    have hnil : es = [] := List.append_right_eq_self.mp (hes.symm.trans hout)
    rcases hkept 1 (owes_unseen hmessages hcursor) id with ⟨_, _, _, _, hmem⟩ | hbelow
    · rw [hnil] at hmem
      cases hmem
    · exact absurd (hbelow 1 hmoved) (lt_irrefl _)
  · obtain ⟨es, hes, hkept⟩ := hkept (5000, [0x61]) hwho₁
    have hnil : es = [] := List.append_right_eq_self.mp (hes.symm.trans hout₁)
    rcases hkept 1 (owes_unseen hmessages₁ hcursor₁) id with ⟨_, _, _, _, hmem⟩ | hbelow
    · rw [hnil] at hmem
      cases hmem
    · exact absurd (hbelow 1 hmoved₁) (lt_irrefl _)

end Core
end CoreSplitter
