import CoreSplitter.Lib.Utf8Pieces
import CoreSplitter.Theorems.Listing

/-! What a GET_CHANNEL is answered from the cache: the CHANNEL_INFO that was last heard of the channel, if its name
    survives. -/

namespace CoreSplitter
open Bytes

/-! ### Names -/

theorem Utf8.zero_notMem_lossy {p : Bytes} (h : 0 ∉ p) : 0 ∉ Utf8.lossy p := by
  have hreplaced {r : Bytes} (hr : 0 ∉ Utf8.lossy r) : 0 ∉ Utf8.replacement ++ Utf8.lossy r := by
    rw [List.mem_append]
    exact not_or_intro (by decide) hr
  induction Utf8.pieces p with
  | nil => exact h
  | char hc _ ih =>
    rw [List.mem_append, not_or] at h
    rw [Utf8.lossy_char hc, List.mem_append]
    exact not_or_intro h.1 (ih h.2)
  | stray hb _ ih =>
    rw [Utf8.lossy_stray hb]
    exact hreplaced (ih fun hr => h (List.mem_cons_of_mem _ hr))
  | cut hq =>
    rw [hq.lossy_cut]
    decide
  | broken hq hb _ ih =>
    rw [hq.lossy_broken hb]
    exact hreplaced (ih fun hr => h (List.mem_append_right _ hr))

/-- A name that is kept in 32 bytes and padded is the name that was stored, if it is one. -/
theorem field_lossy_eq_iff {p : Bytes} {n : Nat} (hnul : 0 ∉ p) (hlen : p.length ≤ n) :
    field n (Utf8.lossy p) = field n p ↔ (Utf8.lossy p).take n = p := by
  have huntil {q : Bytes} (hq : 0 ∉ q) : untilNul (field n q) = q.take n := by
    have htake : 0 ∉ q.take n := fun h => hq (List.mem_of_mem_take h)
    rw [field, untilNul_append_of_notMem htake]
    cases n - q.length <;> simp [List.replicate_succ, untilNul]
  constructor
  · intro h
    rw [← huntil (Utf8.zero_notMem_lossy hnul), h, huntil hnul, List.take_of_length_le hlen]
  · intro h
    have hle := Utf8.length_le_lossy p
    have hrest : n - (Utf8.lossy p).length = n - p.length := by
      have hmin := congrArg List.length h
      rw [List.length_take] at hmin
      omega
    rw [field, field, h, List.take_of_length_le hlen, hrest]

namespace Core

/-! ### CHANNEL_INFO -/

/-- The CHANNEL_INFO of a channel that is complete, handled in a turn. -/
def Event.Informs (e : Event) (i : UInt8) (f : Bytes) : Prop :=
  ∃ env, e = .radio env f ∧ f.head? = some 0x12 ∧ f[1]? = some i ∧ 50 ≤ f.length

/-- The turn answers a GET_CHANNEL of a channel from the cache. -/
def Lap.ServesChannel (s : Lap) (i : UInt8) (frame : Bytes) : Prop :=
  ∃ env cmd cid who version, s.event = .command env cmd ∧
  cmd.payload.head? = some 0x1F ∧ cmd.payload[1]? = some i ∧ .client cid who version frame .cached ∈ s.after.out

/-- The 50 bytes of a CHANNEL_INFO, with nothing after the name's NUL. -/
def channelReply (f : Bytes) : Bytes := f.take 2 ++ (field 32 (untilNul ((f.drop 2).take 32)) ++ (f.drop 34).take 16)

/-- The channel's name is well-formed, or it fills the field and only the start of a U+FFFD is cut off in the end. -/
def NameKept (f : Bytes) : Prop := Utf8.WellFormed (untilNul ((f.drop 2).take 32)) ∨
    (untilNul ((f.drop 2).take 32)).length = 32 ∧
  ∃ w, Utf8.WellFormed w ∧ (untilNul ((f.drop 2).take 32) = w ++ [0xEF] ∨
      untilNul ((f.drop 2).take 32) = w ++ [0xEF, 0xBF])

section
variable {c c₁ : Core} {frontend : List (List FrontendOp)} {env : Env} {cmd : ClientCommand} {i : UInt8}
  {f frame : Bytes} {s u : Lap} {l l₁ l₂ : List Deed} {row : CachedChannel}

theorem channelInfoFrame_iff (hcode : f.head? = some 0x12) (hlen : 50 ≤ f.length) :
    channelInfoFrame (channelOf f hlen) = channelReply f ↔ NameKept f := by
  obtain ⟨code, rest, rfl⟩ := List.exists_cons_of_length_pos (Nat.lt_of_lt_of_le (by decide) hlen)
  obtain rfl : code = 0x12 := Option.some.inj hcode
  obtain ⟨i, rest, rfl⟩ := List.exists_cons_of_length_pos (l := rest) (by simp at hlen; omega)
  have hidx : UInt8.ofInt (channelOf (0x12 :: i :: rest) hlen).idx = i := by
    show UInt8.ofInt (i.toNat : Int) = i
    have hmod : ((i.toNat : Int) % 2 ^ 8).toNat = i.toNat := by
      have := i.toNat_lt
      omega
    rw [UInt8.ofInt, hmod, UInt8.ofNat_toNat]
  have hname : 0 ∉ untilNul (rest.take 32) := fun h => by simpa using List.mem_takeWhile_imp h
  have hlong : (untilNul (rest.take 32)).length ≤ 32 :=
    Nat.le_trans (List.takeWhile_prefix _).length_le (by rw [List.length_take]; exact Nat.min_le_left _ _)
  have hsecret : field 16 ((rest.drop 32).take 16) = (rest.drop 32).take 16 := field_of_length (by
    simp at hlen ⊢
    omega)
  have hframe : channelInfoFrame (channelOf (0x12 :: i :: rest) hlen) =
      0x12 :: i :: (field 32 (Utf8.lossy (untilNul (rest.take 32))) ++ field 16 ((rest.drop 32).take 16)) := by
    rw [channelInfoFrame, hidx]
    rfl
  have hkept := Utf8.take_lossy_eq_iff hlong
  rw [← field_lossy_eq_iff hname hlong] at hkept
  rw [hframe, hsecret]
  refine Iff.trans ?_ hkept
  simp [channelReply]

/-! ### Serving -/

/-- Every channel is cached under its index. -/
def ChannelsKeyed (db : NodeState) : Prop := ∀ k row, db.channels.lookup k = some row → row.idx = k

theorem lookup_of_find {db : NodeState} {k : Int} (hkeyed : ChannelsKeyed db)
    (h : (db.getChannels.find? fun ch => ch.idx == k) = some row) : db.channels.lookup k = some row := by
  have hmem : row ∈ db.channels.rows.map fun r => r.2 := (List.mem_insertionSort _).mp (List.mem_of_find?_eq_some h)
  obtain ⟨⟨k', row'⟩, hrow, rfl⟩ := List.mem_map.mp hmem
  have hlookup := Table.mem_rows.mp hrow
  have hidx : row'.idx = k := by simpa using List.find?_some h
  rw [← hidx, hkeyed k' row' hlookup]
  exact hlookup

/-- What a GET_CHANNEL gets from the cache is the row of its channel. -/
theorem served_channel {cid : ClientId} {who : Option Identity} {version : UInt8} (hkeyed : ChannelsKeyed c.db)
    (hs : c.step frontend (.command env cmd) = .ok c₁) (hcode : cmd.payload.head? = some 0x1F)
    (hidx : cmd.payload[1]? = some i) (hsent : .client cid who version frame .cached ∈ c₁.out) :
    c₁.db = c.db ∧ ∃ row : CachedChannel, c.db.channels.lookup (i.toNat : Int) = some row ∧
    frame = channelInfoFrame row := by
  rcases read_cases hs hcode (Or.inr rfl) with hnone | ⟨-, hserved⟩
  · exact absurd hsent (hnone _ _ _ _)
  · have hrequested : requestedIdx cmd.payload = i.toNat := by rw [requestedIdx, hidx]
    rw [tryServeFromCache_getChannel, hrequested] at hserved
    split at hserved
    · split at hserved
      · rename_i row hrow
        obtain rfl : (c.begin frontend).lockClients.respondChannelInfo cmd.clientId row = c₁ :=
          congrArg Prod.snd hserved
        obtain ⟨-, _, _, hform⟩ : Talks (c.begin frontend).lockClients
            ((c.begin frontend).lockClients.respondChannelInfo cmd.clientId row) := sendToClient_talks
        refine ⟨by rw [hform]; rfl, row, lookup_of_find hkeyed hrow, ?_⟩
        rw [respondChannelInfo, sendToClient_out] at hsent
        split at hsent
        · cases List.mem_singleton.mp hsent
          rfl
        · cases hsent
      · cases hserved
    · cases hserved

/-! ### Rows -/

theorem channelPut_eq (hcode : f.head? = some 0x12) (hlen : 50 ≤ f.length) (hidx : f[1]? = some i) : channelPut env f =
    if env.dbOk .upsertChannel then [.put (i.toNat : Int) (channelOf f hlen)] else [] := by
  have hi : f[1] = i := Option.some.inj ((List.getElem?_eq_getElem (by omega)).symm.trans hidx)
  have hput : (channelOf f hlen).idx = i.toNat := hi ▸ rfl
  rw [channelPut, dif_pos ⟨hcode, hlen⟩, hput]

/-- A turn puts a channel's row only as it handles its CHANNEL_INFO. -/
theorem Lap.channelChanges_puts {ch : Change Int CachedChannel} {k : Int} (h : ch ∈ s.channelChanges)
    (hputs : ch.Puts k) :
    ∃ i f, ∃ hlen : 50 ≤ f.length, s.event.Informs i f ∧ s.event.ok .upsertChannel = true ∧ k = i.toNat ∧
      ch = .put k (channelOf f hlen) := by
  obtain ⟨before, frontend, e, after⟩ := s
  have htakes : ch ∉ (sentToRadio after.out).flatMap fun q => q.payload.channelTake e.ok := fun hch => by
    obtain ⟨q, -, hch⟩ := List.mem_flatMap.mp hch
    unfold Command.channelTake at hch
    split at hch
    · obtain ⟨k', -, rfl⟩ := List.mem_map.mp hch
      exact hputs
    · cases hch
  cases e with
  | radio env f =>
    rcases List.mem_append.mp (show ch ∈ channelPut env f ++ _ from h) with h | h
    · unfold channelPut at h
      split at h
      · rename_i hinfo
        split at h
        · rename_i hok
          obtain rfl := List.mem_singleton.mp h
          obtain rfl : k = (f[1].toNat : Int) := hputs
          exact ⟨f[1], f, hinfo.2, ⟨env, rfl, hinfo.1, List.getElem?_eq_getElem _, hinfo.2⟩, hok, rfl, rfl⟩
        · cases h
      · cases h
    · exact absurd h htakes
  | command | timeoutTick | maintenanceTick | disconnected | idle => exact absurd h htakes

/-- A channel's row after a turn is that of the CHANNEL_INFO that the turn cached, or the one before. -/
theorem Lap.channel_after {k : Int} (hvalid : s.before.clients.Valid)
    (hs : s.before.step s.frontend s.event = .ok s.after) (h : s.after.db.channels.lookup k = some row) :
    (∃ i f, ∃ hlen : 50 ≤ f.length, s.event.Informs i f ∧ s.event.ok .upsertChannel = true ∧ k = i.toNat ∧
      row = channelOf f hlen) ∨
      s.before.db.channels.lookup k = some row ∧ ∀ i f, s.event.Informs i f → k = i.toNat →
      s.event.ok .upsertChannel = false := by
  rw [(step_journals hvalid hs).2] at h
  rcases Change.lookup_replay_eq_some_iff.mp h with ⟨hrow, hno⟩ | ⟨j₁, j₂, heq, -⟩
  · refine Or.inr ⟨hrow, fun i f hinforms hk => ?_⟩
    subst hk
    obtain ⟨env, he, hcode, hidx, hlen⟩ := hinforms
    rw [Bool.eq_false_iff]
    intro hok
    refine (hno (.put i.toNat (channelOf f hlen)) ?_).1 rfl
    rw [he] at hok
    have hput : channelPut env f = [.put (i.toNat : Int) (channelOf f hlen)] :=
      (channelPut_eq hcode hlen hidx).trans (if_pos hok)
    unfold Lap.channelChanges
    rw [he]
    dsimp only
    rw [hput]
    exact List.mem_append_left _ (List.mem_singleton.mpr rfl)
  · have hmem : Change.put k row ∈ s.channelChanges := heq ▸ by simp
    obtain ⟨i, f, hlen, hinforms, hok, hk, hch⟩ := Lap.channelChanges_puts hmem rfl
    cases hch
    exact Or.inl ⟨i, f, hlen, hinforms, hok, hk, rfl⟩

theorem start_channels {config : Config} {db : NodeState} {first : Attempt} {attempts : List Attempt}
    (h : (Core.new config db).start env first attempts = .ok c) : c.db.channels = db.channels := by
  obtain ⟨sent, hj, -⟩ := start_syncs h
  exact hj.channels

theorem Service.channelsKeyed (h : Service l c) : ChannelsKeyed c.db := by
  induction h with
  | install hstart =>
    intro k row hrow
    rw [start_channels hstart] at hrow
    cases hrow
  | restart _ hstart ih =>
    intro k row hrow
    rw [start_channels hstart] at hrow
    exact ih k row hrow
  | @turn l c c₁ frontend e hservice hs ih =>
    intro k row hrow
    rcases Lap.channel_after (s := ⟨c, frontend, e, c₁⟩) hservice.valid hs hrow
      with ⟨i, f, hlen, ⟨_, _, _, hidx, _⟩, -, rfl, rfl⟩ | ⟨hbefore, -⟩
    · have hi : f[1] = i := Option.some.inj ((List.getElem?_eq_getElem (by omega)).symm.trans hidx)
      exact hi ▸ rfl
    · exact ih k row hbefore

/-- A channel's row stays while no CHANNEL_INFO of it is handled, or goes. -/
theorem Service.channel_before (h : Service (l₁ ++ .turn u :: l₂) c)
    (hno : ∀ d ∈ l₂, ¬d.Turns fun s => ∃ f, s.event.Informs i f)
    (hrow : c.db.channels.lookup (i.toNat : Int) = some row) :
    u.after.db.channels.lookup (i.toNat : Int) = some row := by
  induction l₂ using List.reverseRecOn generalizing c with
  | nil =>
    obtain ⟨-, -, rfl⟩ := h.of_turn
    exact hrow
  | append_singleton l₂ d ih =>
    rw [List.forall_mem_append, List.forall_mem_singleton] at hno
    rw [← List.cons_append, ← List.append_assoc] at h
    cases d with
    | boot =>
      obtain ⟨c', _, hservice, hstart⟩ := h.of_boot (by simp)
      rw [start_channels hstart] at hrow
      exact ih hservice hno.1 hrow
    | turn s =>
      obtain ⟨hservice, hs, rfl⟩ := h.of_turn
      rcases Lap.channel_after hservice.valid hs hrow with ⟨i', f, hlen, hinforms, -, hi, -⟩ | ⟨hbefore, -⟩
      · obtain rfl : i = i' := UInt8.toNat.inj (by omega)
        exact absurd ⟨f, hinforms⟩ hno.2
      · exact ih hservice hno.1 hbefore

/-- A GET_CHANNEL that is answered from the cache before the next CHANNEL_INFO of its channel gets the last one as
    the radio sent it, up to the name's NUL, if and only if it was cached and its name is kept, or it was not and
    what was cached says the same. -/
theorem channel_served_iff (hrun : Service (l₁ ++ .turn u :: (l₂ ++ [.turn s])) c) (hinforms : u.event.Informs i f)
    (hno : ∀ d ∈ l₂, ¬d.Turns fun s => ∃ f, s.event.Informs i f) (hserves : s.ServesChannel i frame) :
    frame = channelReply f ↔
      if u.event.ok .upsertChannel = true then NameKept f
      else ∃ row : CachedChannel, u.before.db.channels.lookup (i.toNat : Int) = some row ∧
        channelInfoFrame row = channelReply f := by
  rw [← List.cons_append, ← List.append_assoc] at hrun
  obtain ⟨hservice, hs, -⟩ := hrun.of_turn
  obtain ⟨env, cmd, cid, who, version, he, hcode, hidx, hsent⟩ := hserves
  rw [he] at hs
  obtain ⟨-, row, hrow, rfl⟩ := served_channel hservice.channelsKeyed hs hcode hidx hsent
  have hrow := hservice.channel_before hno hrow
  obtain ⟨hbefore, hu⟩ := hservice.split
  rcases Lap.channel_after hbefore.valid hu hrow with ⟨i', f', hlen, hinforms', hok, -, rfl⟩ | ⟨hrow, hfailed⟩
  · obtain ⟨env', he', hhead, -⟩ := hinforms'
    obtain ⟨env'', he'', -⟩ := hinforms
    cases he'.symm.trans he''
    rw [if_pos hok]
    exact channelInfoFrame_iff hhead hlen
  · rw [if_neg (by rw [hfailed i f hinforms rfl]; decide)]
    constructor
    · exact fun h => ⟨row, hrow, h⟩
    · rintro ⟨row', hrow', h⟩
      obtain rfl := Option.some.inj (hrow.symm.trans hrow')
      exact h

/-- The CHANNEL_INFO of channel 0 under a name. -/
def channelNamed (name : Bytes) : Bytes := 0x12 :: 0 :: (field 32 name ++ List.replicate 16 7)

/-- A proxy hears a frame of its radio, and then client 1 asks for channel 0. -/
def hearsChannel (f : Bytes) : Except Panic (Core × List Lap × Core × Core × Core) := do
  let c₀ ← fresh
  let (t, c₁) ← c₀.laps filled
  let c₂ ← c₁.step [] (.radio sound f)
  let c₃ ← c₂.step [[.connect]] (.command sound ⟨1, 5000, [0x1F, 0]⟩)
  return (c₀, t, c₁, c₂, c₃)

theorem hearsChannel_service {c₀ c₂ c₃ : Core} {t : List Lap} (h : hearsChannel f = .ok (c₀, t, c, c₂, c₃)) :
    ∃ l, Service (l ++ .turn ⟨c, [], .radio sound f, c₂⟩ ::
      ([] ++ [.turn ⟨c₂, [[.connect]], .command sound ⟨1, 5000, [0x1F, 0]⟩, c₃⟩])) c₃ := by
  obtain ⟨_, hboot, h⟩ := Except.of_bind_eq_ok h
  obtain ⟨⟨_, _⟩, hlaps, h⟩ := Except.of_bind_eq_ok h
  obtain ⟨_, h₁, h⟩ := Except.of_bind_eq_ok h
  obtain ⟨_, h₂, h⟩ := Except.of_bind_eq_ok h
  cases h
  have hservice := ((((Service.install hboot).trace (Trace.of_laps hlaps).1).turn h₁).turn h₂)
  rw [List.append_assoc] at hservice
  exact ⟨_, hservice⟩

theorem channel_served_named_run : Except.Holds (hearsChannel (channelNamed [0x61, 0xC3, 0xBC])) fun (_, _, _, _, c₃) =>
    .client 1 none 0 (channelNamed [0x61, 0xC3, 0xBC]) .cached ∈ c₃.out := by
  decide +kernel

/-- A name of two letters and a character of two bytes comes back as it was. -/
theorem channel_served_named : ∃ l u s c, Service (l ++ .turn u :: ([] ++ [.turn s])) c ∧
    u.event.Informs 0 (channelNamed [0x61, 0xC3, 0xBC]) ∧ ∃ frame, s.ServesChannel 0 frame ∧
      frame = channelReply (channelNamed [0x61, 0xC3, 0xBC]) := by
  obtain ⟨⟨c₀, t, c₁, c₂, c₃⟩, hrun, hsent⟩ := channel_served_named_run
  obtain ⟨l, hservice⟩ := hearsChannel_service hrun
  have hinforms : Event.Informs (.radio sound (channelNamed [0x61, 0xC3, 0xBC])) 0 (channelNamed [0x61, 0xC3, 0xBC]) :=
    ⟨_, rfl, rfl, rfl, by decide⟩
  have hserves :
      Lap.ServesChannel ⟨c₂, [[.connect]], .command sound ⟨1, 5000, [0x1F, 0]⟩, c₃⟩ 0
      (channelNamed [0x61, 0xC3, 0xBC]) :=
    ⟨_, _, _, _, _, rfl, rfl, rfl, hsent⟩
  refine ⟨l, _, _, c₃, hservice, hinforms, _, hserves, ?_⟩
  refine (channel_served_iff hservice hinforms (List.forall_mem_nil _) hserves).mpr ?_
  exact (if_pos (c := Event.ok (.radio sound _) .upsertChannel = true) rfl).mpr
    (Or.inl (Utf8.lossy_eq_self_iff.mp (by decide)))

theorem channel_misserved_run : Except.Holds (hearsChannel (channelNamed [0xFF])) fun (_, _, _, _, c₃) =>
    .client 1 none 0 (channelNamed [0xEF, 0xBF, 0xBD]) .cached ∈ c₃.out := by
  decide +kernel

/-- A name that is not well-formed comes back as another. -/
theorem channel_misserved : ∃ l u s c, Service (l ++ .turn u :: ([] ++ [.turn s])) c ∧
    u.event.Informs 0 (channelNamed [0xFF]) ∧
    ∃ frame, s.ServesChannel 0 frame ∧ frame ≠ channelReply (channelNamed [0xFF]) := by
  obtain ⟨⟨c₀, t, c₁, c₂, c₃⟩, hrun, hsent⟩ := channel_misserved_run
  obtain ⟨l, hservice⟩ := hearsChannel_service hrun
  exact ⟨l, _, _, c₃, hservice, ⟨_, rfl, rfl, rfl, by decide⟩, _, ⟨_, _, _, _, _, rfl, rfl, rfl, hsent⟩, by decide⟩

end
end Core
end CoreSplitter
