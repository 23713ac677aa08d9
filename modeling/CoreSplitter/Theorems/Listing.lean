import CoreSplitter.Theorems.Service
import CoreSplitter.Theorems.Replays

/-! The lists of contacts that are served from the cache: what a client gets in one, and what it holds after a series
    of them. -/

namespace CoreSplitter
open Bytes

namespace Core

/-! ### Lists -/

/-- A list of contacts: how many there are, those that are sent, and the most recent lastmod among these. -/
def listing (total : Nat) (frames : List Bytes) : List Bytes :=
  (0x02 :: toLe 4 total) :: (frames ++ [0x04 :: toLe 4 ((frames.map contactLastmod).foldl max 0)])

/-- The frames of the cached contacts. -/
def cachedFrames (db : NodeState) : List Bytes := db.getContacts.map fun contact => (contactFrame contact).bytes

/-- The frames among them that a GET_CONTACTS with this filter gets. -/
def framesSince (since : Option Nat) (frames : List Bytes) : List Bytes :=
  frames.filter fun frame => since.all fun since => !decide (contactLastmod frame ≤ since)

/-- The turn answers a GET_CONTACTS with this filter from the cache. -/
def Lap.Lists (s : Lap) (cid : ClientId) (since : Option Nat) : Prop :=
  ∃ env cmd, s.event = .command env cmd ∧ cmd.clientId = cid ∧ cmd.payload.head? = some 0x04 ∧
    sinceOf cmd.payload = since ∧ ∃ who version frame, .client cid who version frame .cached ∈ s.after.out

section
variable {v : ClientId → UInt8} {P : Audience} {c c₁ : Core} {env : Env} {cid : ClientId} {cmd : ClientCommand}
  {payload frame : Bytes} {payloads : List Bytes} {why : Why} {clientId : Option ClientId} {p : Command}
  {since : Option Nat}

theorem contactsReply_eq {contacts : List CachedContact} : contactsReply contacts since =
    listing contacts.length (framesSince since (contacts.map fun contact => (contactFrame contact).bytes)) := by
  have hlastmod (f : ContactFrame) : f.lastmod = contactLastmod f.bytes := by
    simp [ContactFrame.lastmod, contactLastmod, slice]
  have hsent : (selectedFrames contacts since).map (·.bytes) =
      framesSince since (contacts.map fun contact => (contactFrame contact).bytes) := by
    have hmap : (contacts.map fun contact => (contactFrame contact).bytes) =
        (contacts.map contactFrame).map (·.bytes) := by simp
    rw [selectedFrames, framesSince, hmap, List.filter_map (f := fun f : ContactFrame => f.bytes)]
    simp only [hlastmod, Function.comp_def]
  simp only [contactsReply, listing, ← hsent, List.map_map, Function.comp_def, hlastmod]

theorem sendAllToClient_adds (payloads : List Bytes) (why : Why) (ht : Told v P c) (hborn : cid < c.clients.nextId) :
    ∃ frames, Adds cid frames c (c.sendAllToClient cid payloads why) ∧
    frames <+: payloads.map (messageFrameFor (v cid)) ∧
      (c.clients.Stays cid → frames = payloads.map (messageFrameFor (v cid))) ∧
      (cid ∉ c.clients.channels → frames = []) := by
  induction payloads generalizing c with
  | nil => exact ⟨[], .of_out rfl, List.prefix_refl _, fun _ => rfl, fun _ => rfl⟩
  | cons payload payloads ih =>
    have hspeaks : Speaks v P (fun _ _ _ => True) c (c.sendToClient cid payload why) := sendToClient_speaks ht trivial
    have hlater := hspeaks.clients.later
    have hclients : (c.sendToClient cid payload why).clients = c.lockClients.clients := by
      unfold sendToClient
      dsimp only
      split <;> rfl
    obtain ⟨frames, hadds, hprefix, hwhole, hgone⟩ := ih hspeaks.told (Nat.lt_of_lt_of_le hborn hlater.nextId)
    have hfirst :
        Adds cid (if cid = cid ∧ cid ∈ c.lockClients.clients.channels then [messageFrameFor (v cid) payload] else []) c
        (c.sendToClient cid payload why) := sendToClient_adds ht
    have hall := hfirst.trans hadds
    by_cases hmem : cid ∈ c.lockClients.clients.channels
    · rw [if_pos ⟨rfl, hmem⟩] at hall
      refine ⟨_, hall, (List.prefix_cons_inj _).mpr hprefix, fun hstays => ?_, fun hnot => ?_⟩
      · rw [hwhole (hspeaks.clients.stays hstays)]
        rfl
      · exact absurd (Clients.lock_later.old cid hmem hborn) hnot
    · rw [if_neg fun h => hmem h.2, hgone (hclients ▸ hmem)] at hall
      exact ⟨[], hall, List.nil_prefix, fun hstays => absurd hstays.lock.connected hmem, fun _ => rfl⟩

theorem enqueueOrDispatch_uncached {who : Option Identity} {version : UInt8}
    (h : .client cid who version frame .cached ∈ (c.enqueueOrDispatch env clientId p).out) :
    .client cid who version frame .cached ∈ c.out := by
  have hfail (c : Core) (q : Queued) (h : .client cid who version frame .cached ∈ (c.failTo q).out) :
      .client cid who version frame .cached ∈ c.out := by
    obtain ⟨es, hout, hes⟩ := (failTo_still (c := c) (q := q)).out
    rw [hout] at h
    rcases List.mem_append.mp h with h | h
    · exact h
    · obtain ⟨_, _, _, _, _, he⟩ := hes _ h
      cases he
  unfold enqueueOrDispatch at h
  split at h
  · dsimp only at h
    rw [dispatchToRadio_eq] at h
    split at h
    · have hkept : Kept (fun _ => False) (((c.hand clientId p).2).emit (.radio (c.hand clientId p).1))
          ((((c.hand clientId p).2).emit (.radio (c.hand clientId p).1)).invalidate env
            (c.hand clientId p).1.payload) := invalidate_kept
      rw [show ((c.hand clientId p).2.startWith env (c.hand clientId p).1).out = _ from hkept.silent] at h
      simpa [hand, emit] using h
    · have h := hfail _ _ (by simpa [emit] using h)
      simpa [hand, emit] using h
  · simpa [pushBack, hand, emit] using h

/-- Frames of the cached tables are the same in every layout. -/
theorem IsRow.untouched {version : UInt8} (h : IsRow frame) : messageFrameFor version frame = frame := by
  obtain ⟨code, rest, rfl⟩ : ∃ code rest, frame = code :: rest := by
    cases frame with
    | nil => rcases h.code with h | h | h | h <;> cases h
    | cons code rest => exact ⟨code, rest, rfl⟩
  rcases h.code with h | h | h | h <;> cases h <;> rfl

theorem serveCommand_read (hp : p.code = 0x04 ∨ p.code = 0x1F) :
    c.serveCommand env cmd p = c.serveFromRadio env cmd p := by
  have hversion : c.recordVersion p.code cmd = c := by
    unfold recordVersion
    rcases hp with hp | hp <;> rw [hp] <;> split <;> rfl
  have h₁ : ¬p.code = 0x01 := by rcases hp with hp | hp <;> rw [hp] <;> decide
  have h₂ : ¬p.code = 0x0A := by rcases hp with hp | hp <;> rw [hp] <;> decide
  unfold serveCommand
  rw [if_neg h₁]
  dsimp only
  rw [hversion, if_neg h₂]

theorem tryServeFromCache_getContacts : c.tryServeFromCache env 0x04 cmd =
    if env.dbOk .getContacts && !c.db.getContacts.isEmpty then
      (true, c.respondContacts cmd.clientId c.db.getContacts (sinceOf cmd.payload))
    else (false, c) := rfl

/-- The channel that a GET_CHANNEL asks for. -/
def requestedIdx (payload : Bytes) : Int :=
  match payload[1]? with
  | some idx => idx.toNat
  | none => -1

theorem tryServeFromCache_getChannel : c.tryServeFromCache env 0x1F cmd =
    if env.dbOk .getChannels then
      match c.db.getChannels.find? fun ch => ch.idx == requestedIdx cmd.payload with
      | some ch => (true, c.respondChannelInfo cmd.clientId ch)
      | none => (false, c)
    else (false, c) := rfl

/-- A GET_CONTACTS or GET_CHANNEL that is not served from the cache leaves it alone. -/
theorem unserved_read {code : UInt8} (hread : code = 0x04 ∨ code = 0x1F)
    (h : (c.tryServeFromCache env code cmd).1 = false) : (c.tryServeFromCache env code cmd).2 = c := by
  rcases hread with rfl | rfl
  · rw [tryServeFromCache_getContacts] at h ⊢
    split at h
    · cases h
    · rename_i hno
      rw [if_neg hno]
  · rw [tryServeFromCache_getChannel] at h ⊢
    split at h
    · rename_i hok
      rw [if_pos hok]
      split at h
      · cases h
      · rfl
    · rename_i hno
      rw [if_neg hno]

/-- A GET_CONTACTS or GET_CHANNEL gets nothing of the cache, or is served from it alone. -/
theorem read_cases {frontend : List (List FrontendOp)} {code : UInt8} (hs : c.step frontend (.command env cmd) = .ok c₁)
    (hcode : cmd.payload.head? = some code) (hread : code = 0x04 ∨ code = 0x1F) :
    (∀ cid who version frame, .client cid who version frame .cached ∉ c₁.out) ∨
      cmd.clientId ∈ (c.begin frontend).lockClients.clients.channels ∧
        (c.begin frontend).lockClients.tryServeFromCache env code cmd = (true, c₁) := by
  obtain ⟨rest, hpayload⟩ := List.head?_eq_some_iff.mp hcode
  have hs : (c.begin frontend).handleClientCommand env cmd = .ok c₁ := hs
  unfold handleClientCommand at hs
  rw [dif_neg (by simp [hpayload])] at hs
  dsimp only [clientIsAlive] at hs
  cases halive : (c.begin frontend).lockClients.clients.channels.contains cmd.clientId with
  | false =>
    rw [halive] at hs
    cases hs
    exact Or.inl fun _ _ _ _ => List.not_mem_nil
  | true =>
    rw [halive] at hs
    obtain ⟨-, -, hs⟩ := Except.of_bind_eq_ok hs
    have hp : Command.code ⟨cmd.payload, by simp [hpayload]⟩ = code := by simp [Command.code, hpayload]
    have hstart : code ≠ 0x01 := by rcases hread with rfl | rfl <;> decide
    cases hs
    rw [serveCommand_read (hp.symm ▸ hread), serveFromRadio, hp]
    cases hserved : ((c.begin frontend).lockClients.tryServeFromCache env code cmd).1 with
    | true => exact Or.inr ⟨List.contains_iff_mem.mp halive, Prod.ext hserved (by simp [hserved, hstart])⟩
    | false =>
      refine Or.inl fun _ _ _ _ h => absurd (enqueueOrDispatch_uncached (by simpa [hserved] using h)) ?_
      rw [unserved_read hread hserved]
      exact List.not_mem_nil

/-- A GET_CONTACTS gets nothing of the cache, or the whole list that it asks for. -/
theorem getContacts_cases {frontend : List (List FrontendOp)} (hs : c.step frontend (.command env cmd) = .ok c₁)
    (hcode : cmd.payload.head? = some 0x04) :
    (∀ cid who version frame, .client cid who version frame .cached ∉ c₁.out) ∨
      c.db.getContacts ≠ [] ∧ cmd.clientId ∈ (c.begin frontend).lockClients.clients.channels ∧
        c₁ = (c.begin frontend).lockClients.respondContacts cmd.clientId c.db.getContacts (sinceOf cmd.payload) := by
  refine (read_cases hs hcode (Or.inl rfl)).imp_right fun ⟨halive, hserved⟩ => ?_
  rw [tryServeFromCache_getContacts] at hserved
  split at hserved
  · rename_i hcached
    refine ⟨fun hnil => ?_, halive, (congrArg Prod.snd hserved).symm⟩
    have hnil : (c.begin frontend).lockClients.db.getContacts = [] := hnil
    rw [hnil] at hcached
    simp at hcached
  · cases hserved

theorem Lap.Lists.db {s : Lap} (hs : s.before.step s.frontend s.event = .ok s.after) (h : s.Lists cid since) :
    s.after.db = s.before.db := by
  obtain ⟨env, cmd, he, -, hcode, -, who, version, frame, hsent⟩ := h
  rw [he] at hs
  rcases getContacts_cases hs hcode with hnone | ⟨-, -, hafter⟩
  · exact absurd hsent (hnone _ _ _ _)
  · obtain ⟨-, _, _, hform⟩ : Talks (s.before.begin s.frontend).lockClients s.after := hafter ▸ sendAllToClient_talks
    rw [hform]
    rfl

/-- A list that is served goes to its client in order, and whole if the client stays. -/
theorem Lap.Lists.frames {s : Lap} (ht : Told v .any s.before) (hs : s.before.step s.frontend s.event = .ok s.after)
    (h : s.Lists cid since) : cachedFrames s.before.db ≠ [] ∧
      let reply := listing (cachedFrames s.before.db).length (framesSince since (cachedFrames s.before.db))
      framesTo cid s.after.out <+: reply ∧ ((s.before.begin s.frontend).clients.Stays cid →
        framesTo cid s.after.out = reply) := by
  obtain ⟨env, cmd, he, rfl, hcode, rfl, who, version, frame, hsent⟩ := h
  rw [he] at hs
  rcases getContacts_cases hs hcode with hnone | ⟨hne, halive, hafter⟩
  · exact absurd hsent (hnone _ _ _ _)
  · have htold :
        Told v ⟨(s.before.begin s.frontend).clients.Meets, fun _ => True⟩ (s.before.begin s.frontend).lockClients :=
      (ht.begin _).lock
    obtain ⟨frames, hadds, hprefix, hwhole, -⟩ := sendAllToClient_adds
      (contactsReply s.before.db.getContacts (sinceOf cmd.payload)) .cached htold (htold.valid.born _ halive)
    have hplain : (contactsReply s.before.db.getContacts (sinceOf cmd.payload)).map (messageFrameFor (v cmd.clientId)) =
        contactsReply s.before.db.getContacts (sinceOf cmd.payload) := by
      rw [List.map_congr_left fun frame hframe => (contactsReply_isRow frame hframe).untouched, List.map_id']
    have hframes : framesTo cmd.clientId s.after.out = frames := by
      rw [hafter]
      exact hadds
    have hreply : contactsReply s.before.db.getContacts (sinceOf cmd.payload) =
        listing (cachedFrames s.before.db).length (framesSince (sinceOf cmd.payload) (cachedFrames s.before.db)) := by
      rw [contactsReply_eq, cachedFrames, List.length_map]
    rw [hplain, hreply] at hprefix hwhole
    refine ⟨by simpa [cachedFrames] using hne, hframes ▸ hprefix, fun hstays => ?_⟩
    rw [hframes]
    exact hwhole hstays.lock

end

/-! ### What a list holds -/

section
variable {l l₁ l₂ : List Deed} {s : Lap} {c : Core} {cid : ClientId} {key frame : Bytes} {row : ContactRow}
  {db : NodeState}

theorem Event.DbOk.ok {e : Event} (h : e.DbOk) (call : DbCall) : e.ok call = true := by
  cases e with
  | command | radio | timeoutTick | maintenanceTick => exact h call
  | disconnected | idle => rfl

theorem cachedFrames_perm :
    (cachedFrames db).Perm (db.contacts.rows.map fun r => (contactFrame r.2.contact).bytes) := by
  have hperm : db.getContacts.Perm (db.contacts.rows.map fun r => r.2.contact) := List.perm_insertionSort _ _
  refine (hperm.map _).trans ?_
  rw [List.map_map]
  exact .refl _

theorem mem_cachedFrames : frame ∈ cachedFrames db ↔
    ∃ key row, db.contacts.lookup key = some row ∧ (contactFrame row.contact).bytes = frame := by
  simp only [cachedFrames_perm.mem_iff, List.mem_map, Prod.exists, Table.mem_rows]

/-- A cached contact is served as the last frame that was heard of it. -/
theorem Service.served (h : Service l c) (hrow : c.db.contacts.lookup key = some row) :
    Since (Deed.Turns fun s => s.event.contact = some (contactFrame row.contact).bytes) (fun d => ¬d.Turns fun s =>
      s.Hears key) l ∧ contactKey (contactFrame row.contact).bytes = key := by
  obtain ⟨l₁, d, l₂, rfl, hrecords, hafter⟩ := h.contact_iff.mp hrow
  cases d with
  | boot => cases hrecords
  | turn s =>
    obtain ⟨_, _, frame, -, hcontact, hkey, hbytes, -⟩ := hrecords.1.holds
    subst hbytes
    refine ⟨⟨l₁, .turn s, l₂, rfl, hcontact, fun d hd hhears => hafter d hd ?_⟩, hkey⟩
    cases d with
    | boot => cases hhears
    | turn s => exact Or.inl hhears

theorem Event.contact_length {e : Event} (h : e.contact = some frame) :
    frame.length = 148 ∧ frame.head? = some 0x03 := by
  unfold Event.contact at h
  split at h
  · rename_i payload
    split at h
    · rename_i hcontact
      cases h
      have hlen : 148 ≤ payload.length := hcontact.2
      exact ⟨by simp [contactFrameLen, hlen], by simp [contactFrameLen, List.head?_take, hcontact.1]⟩
    · cases h
  · cases h

theorem cachedFrames_nodup (h : Service l c) : ((cachedFrames c.db).map contactKey).Nodup := by
  have hkeys : (c.db.contacts.rows.map fun r => (contactFrame r.2.contact).bytes).map contactKey =
      c.db.contacts.rows.map (·.1) := by
    rw [List.map_map]
    exact List.map_congr_left fun r hr => (h.served (Table.mem_rows.mp hr)).2
  rw [(cachedFrames_perm.map contactKey).nodup_iff, hkeys, Table.rows, List.map_map]
  exact c.db.contacts.nodupKeys

/-- A list of all contacts that is served from the cache has each contact that was heard and neither taken out nor swept
    since, in the last frame that was heard of it. -/
theorem listed_contacts (hrun : Service (l₁ ++ .turn s :: l₂) c) (hok : ∀ u, .turn u ∈ l₁ → u.event.DbOk)
    (hlists : s.Lists cid none) : ∃ frames, framesTo cid s.after.out <+: listing frames.length frames ∧
      ((s.before.begin s.frontend).clients.Stays cid → framesTo cid s.after.out = listing frames.length frames) ∧
      (∀ frame ∈ frames, frame.length = 148 ∧ frame.head? = some 0x03) ∧ (frames.map contactKey).Nodup ∧
      (∀ key, key ∈ frames.map contactKey ↔ ∃ m u n frame, l₁ = m ++ .turn u :: n ∧ u.event.contact = some frame ∧
        contactKey frame = key ∧ ¬u.Dismisses key ∧ ∀ v, .turn v ∈ n → ¬v.Dismisses key ∧ ¬v.Sweeps key) ∧
      ∀ frame ∈ frames, ∃ m u n, l₁ = m ++ .turn u :: n ∧ u.event.contact = some frame ∧
        ∀ v frame', .turn v ∈ n → v.event.contact = some frame' → contactKey frame' ≠ contactKey frame := by
  obtain ⟨hservice, hs⟩ := hrun.split
  obtain ⟨out, hreach⟩ := hservice.reachable
  obtain ⟨-, hprefix, hwhole⟩ := hlists.frames hreach.told hs
  have hall : framesSince none (cachedFrames s.before.db) = cachedFrames s.before.db := by simp [framesSince]
  rw [hall] at hprefix hwhole
  have hheard {u : Lap} (hu : .turn u ∈ l₁) {key : Bytes} :
      u.Hears key ↔ ∃ frame, u.event.contact = some frame ∧ contactKey frame = key := by
    constructor
    · intro hhears
      obtain ⟨row, hrow⟩ := Lap.hears_iff_records.mp hhears
      obtain ⟨_, _, frame, -, hcontact, hkey, -⟩ := hrow.holds
      exact ⟨frame, hcontact, hkey⟩
    · rintro ⟨frame, hcontact, rfl⟩
      exact Lap.hears_of_contact hcontact ((hok u hu).ok _)
  have hlast {frame : Bytes} (hframe : frame ∈ cachedFrames s.before.db) : ∃ m u n, l₁ = m ++ .turn u :: n ∧
      u.event.contact = some frame ∧ ∀ v frame', .turn v ∈ n → v.event.contact = some frame' →
      contactKey frame' ≠ contactKey frame := by
    obtain ⟨key, row, hrow, rfl⟩ := mem_cachedFrames.mp hframe
    obtain ⟨⟨m, d, n, rfl, hcontact, hafter⟩, hkey⟩ := hservice.served hrow
    cases d with
    | boot => cases hcontact
    | turn u =>
      refine ⟨m, u, n, rfl, hcontact, fun v frame' hv hframe' heq => hafter _ hv ?_⟩
      exact (hheard (by simp [hv])).mpr ⟨frame', hframe', heq.trans hkey⟩
  refine ⟨cachedFrames s.before.db, hprefix, hwhole, fun frame hframe => ?_, cachedFrames_nodup hservice,
    fun key => ?_, fun _ => hlast⟩
  · obtain ⟨_, _, _, -, hcontact, -⟩ := hlast hframe
    exact Event.contact_length hcontact
  · have hcached : key ∈ (cachedFrames s.before.db).map contactKey ↔ s.before.db.contacts.lookup key ≠ none := by
      rw [List.mem_map, Option.ne_none_iff_exists']
      constructor
      · rintro ⟨frame, hframe, rfl⟩
        obtain ⟨key, row, hrow, rfl⟩ := mem_cachedFrames.mp hframe
        exact ⟨row, (hservice.served hrow).2 ▸ hrow⟩
      · rintro ⟨row, hrow⟩
        exact ⟨_, mem_cachedFrames.mpr ⟨key, row, hrow, rfl⟩, (hservice.served hrow).2⟩
    rw [hcached, hservice.cached_iff]
    constructor
    · rintro ⟨m, d, n, rfl, hhears, hafter⟩
      cases d with
      | boot => cases hhears
      | turn u =>
        have hu : Deed.turn u ∈ m ++ .turn u :: n := by simp
        obtain ⟨frame, hcontact, hkey⟩ := (hheard hu).mp hhears.1
        refine ⟨m, u, n, frame, rfl, hcontact, hkey, fun h => hhears.2 ⟨h, (hok u hu).ok _⟩,
          fun v hv => ⟨fun h => ?_, fun h => ?_⟩⟩
        · exact hafter _ hv (Or.inl ⟨h, (hok v (by simp [hv])).ok _⟩)
        · exact hafter _ hv (Or.inr h)
    · rintro ⟨m, u, n, frame, rfl, hcontact, hkey, hkept, hafter⟩
      refine ⟨m, .turn u, n, rfl, ⟨(hheard (by simp)).mpr ⟨frame, hcontact, hkey⟩, fun h => hkept h.1⟩,
        fun d hd hturns => ?_⟩
      cases d with
      | boot => cases hturns
      | turn v => exact hturns.elim (fun h => (hafter v hd).1 h.1) (hafter v hd).2

/-- Another contact of the radio. -/
def nines : Bytes := 0x03 :: List.replicate 147 9

/-- Both contacts are heard, and the first of them once more with another byte at its end. -/
def heardTwice : List Turn := filled ++ [([], .radio sound nines), ([], .radio sound (sevens.set 147 8))]

theorem listed_contacts_two_run : Except.Holds (do
    let c₀ ← fresh
    let (t, c₁) ← c₀.laps heardTwice
    let c₂ ← c₁.step [[.connect]] (.command sound ⟨1, 5000, [0x04]⟩)
    return (c₀, t, c₁, c₂)) fun (_, _, _, c₂) =>
      .client 1 none 0 nines .cached ∈ c₂.out ∧ framesTo 1 c₂.out = listing 2 [sevens.set 147 8, nines] := by
  decide +kernel

/-- A client lists the contacts: it gets two of the three frames, the last one of each contact. -/
theorem listed_contacts_two : ∃ l s c frames, Service (l ++ [.turn s]) c ∧ s.Lists 1 none ∧
    framesTo 1 s.after.out = listing 2 [sevens.set 147 8, nines] ∧
    framesTo 1 s.after.out <+: listing frames.length frames ∧ (frames.map contactKey).Nodup ∧
    ∀ frame ∈ frames, ∃ m u n, l = m ++ .turn u :: n ∧ u.event.contact = some frame ∧
      ∀ v frame', .turn v ∈ n → v.event.contact = some frame' → contactKey frame' ≠ contactKey frame := by
  obtain ⟨⟨c₀, t, c₁, c₂⟩, hrun, hsent, hframes⟩ := listed_contacts_two_run
  obtain ⟨_, hboot, hrun⟩ := Except.of_bind_eq_ok hrun
  obtain ⟨⟨_, _⟩, hlaps, hrun⟩ := Except.of_bind_eq_ok hrun
  obtain ⟨_, hstep, hrun⟩ := Except.of_bind_eq_ok hrun
  cases hrun
  obtain ⟨htrace, hturns⟩ := Trace.of_laps hlaps
  have hservice := ((Service.install hboot).trace htrace).turn hstep
  have hlists : Lap.Lists ⟨c₁, [[.connect]], .command sound ⟨1, 5000, [0x04]⟩, c₂⟩ 1 none :=
    ⟨_, _, rfl, rfl, rfl, rfl, _, _, _, hsent⟩
  have hok (u : Lap)
      (hu : .turn u ∈ [Deed.boot sound ⟨true, [.frame [0x05], .frame [0x0D, 9, 1, 1]], sound, sound, sound⟩ [] c₀] ++
      t.map .turn) : u.event.DbOk := by
    obtain ⟨u', hu', heq⟩ := List.mem_map.mp ((List.mem_append.mp hu).resolve_left (by simp))
    cases heq
    exact dbOk_of_turns hturns (by simp [heardTwice, filled, Event.DbOk, sound, soundAt]) u hu'
  obtain ⟨frames, hprefix, -, -, hnodup, -, hlast⟩ := listed_contacts hservice hok hlists
  exact ⟨_, _, _, frames, hservice, hlists, hframes, hprefix, hnodup, hlast⟩

end
end Core
end CoreSplitter
