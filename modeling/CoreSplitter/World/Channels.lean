import CoreSplitter.Theorems.Channels
import CoreSplitter.Theorems.Retention
import CoreSplitter.World.Replies

/-! The cached channels and those of the radio. A SET_CHANNEL takes its channel out of the cache as it is sent, so
    what the cache serves is at every moment what the radio holds. -/

namespace CoreSplitter
open Bytes

/-- The frame is the CHANNEL_INFO of the channel. -/
def Informs (frame : Bytes) (i : UInt8) : Prop := frame.head? = some 0x12 ∧ frame[1]? = some i ∧ 50 ≤ frame.length

instance {frame : Bytes} {i : UInt8} : Decidable (Informs frame i) := inferInstanceAs (Decidable (_ ∧ _))

/-- A quiet radio that answers in shape. Its state are the CHANNEL_INFO frames of its channels, which it changes as
    it executes a SET_CHANNEL of them. -/
def Radio.channelled : Radio (Table UInt8 Bytes) where
  take s q s' := s.Differs s' fun i => q.payload.writtenChannel = some (i.toNat : Int)
  reply s q frame last s' := s' = s ∧ (∃ code ∈ frame.head?, (awaitingFor q.payload).classify code = (true, last)) ∧
    ∀ i ∈ frame[1]?, Informs frame i → s.lookup i = some frame
  push s frame s' := s' = s ∧ ∃ code ∈ frame.head?, isPushEvent code = true ∧ code ≠ 0x8B
  drift s s' := s' = s
  relink s s' := s' = s

namespace Radio

section
variable {s s' : Table UInt8 Bytes} {q : Queued} {frame : Bytes} {last : Bool}

instance : Decidable (channelled.take s q s') :=
  inferInstanceAs (Decidable (s.Differs s' fun i => q.payload.writtenChannel = some (i.toNat : Int)))
instance : Decidable (channelled.reply s q frame last s') :=
  inferInstanceAs (Decidable (s' = s ∧ (∃ code ∈ frame.head?, (awaitingFor q.payload).classify code = (true, last)) ∧
    ∀ i ∈ frame[1]?, Informs frame i → s.lookup i = some frame))
instance : Decidable (channelled.push s frame s') :=
  inferInstanceAs (Decidable (s' = s ∧ ∃ code ∈ frame.head?, isPushEvent code = true ∧ code ≠ 0x8B))
instance : Decidable (channelled.drift s s') := inferInstanceAs (Decidable (s' = s))

end

theorem channelled_quiet : channelled.Quiet := by
  rintro s frame s' ⟨-, code, hcode, -, hne⟩ h
  exact hne (Option.some.inj (hcode.symm.trans h))

theorem channelled_shaped : channelled.Shaped where
  reply _ _ _ _ _ h := h.2.1
  push _ _ _ h := h.2.imp fun _ h => ⟨h.1, h.2.1⟩
  telemetry := Or.inl channelled_quiet

end Radio

namespace Core
variable {s : Lap} {q : Queued} {k : Int}

/-- A turn that sends a SET_CHANNEL leaves its channel out of the cache. -/
theorem Lap.channel_written (hvalid : s.before.clients.Valid) (hs : s.before.step s.frontend s.event = .ok s.after)
    (hsent : .radio q ∈ s.after.out) (hk : q.payload.writtenChannel = some k) (hok : s.event.ok .deleteChannel = true) :
    s.after.db.channels.lookup k = none := by
  let takes : List (Change Int CachedChannel) := (sentToRadio s.after.out).flatMap fun q =>
    q.payload.channelTake s.event.ok
  have htake : .take k ∈ takes := by
    refine List.mem_flatMap.mpr ⟨q, mem_sentToRadio.mpr hsent, ?_⟩
    simp [Command.channelTake, hok, hk]
  have hputs : ∀ ch ∈ takes, ¬ch.Puts k := fun ch hch hputs => by
    obtain ⟨q, -, hch⟩ := List.mem_flatMap.mp hch
    rw [Command.channelTake, if_pos hok] at hch
    obtain ⟨_, -, rfl⟩ := List.mem_map.mp hch
    exact hputs
  have hsplit : ∃ before, s.channelChanges = before ++ takes := by
    unfold Lap.channelChanges
    split
    · exact ⟨_, rfl⟩
    · exact ⟨[], rfl⟩
  obtain ⟨before, hbefore⟩ := hsplit
  rw [(step_journals hvalid hs).2, hbefore, Change.replay_append, Option.eq_none_iff_forall_ne_some]
  intro row hrow
  rcases Change.lookup_replay_eq_some_iff.mp hrow with ⟨-, hno⟩ | ⟨j₁, j₂, heq, -⟩
  · exact (hno _ htake).2 rfl
  · exact hputs (.put k row) (by rw [heq]; simp) rfl

theorem IsSync.writes_nothing (h : IsSync q) : q.payload.writtenChannel = none := by
  rcases h.2 with hcode | hcode <;> simp [Command.writtenChannel, hcode]

end Core

namespace World
variable {w w₁ w₀ : World (Table UInt8 Bytes)} {c : Core} {f : Frame} {rest : List Frame} {o : Option Frame}
  {s : Table UInt8 Bytes} {frontend : List (List FrontendOp)} {env : Env} {e : Core.Event} {q : Queued}
  {rest' : List Queued} {i : UInt8} {frame : Bytes} {last : Bool} {row : CachedChannel}

/-- What is cached of the channel is what the radio holds. -/
def Holds (w : World (Table UInt8 Bytes)) (i : UInt8) (row : CachedChannel) : Prop :=
  ∃ frame, ∃ hlen : 50 ≤ frame.length, w.radio.lookup i = some frame ∧ frame.head? = some 0x12 ∧
    row = Core.channelOf frame hlen

/-- Every cached channel, and every CHANNEL_INFO on its way, is as the radio holds it; of a channel that is being
    set nothing is cached. -/
structure Coherent (w : World (Table UInt8 Bytes)) : Prop where
  keyed : Core.ChannelsKeyed w.core.db
  cached : ∀ i row, w.core.db.channels.lookup (UInt8.toNat i : Int) = some row → w.Holds i row
  back : ∀ f ∈ w.wire.back, ∀ i, Informs f.body i → w.radio.lookup i = some f.body
  dropped : ∀ q ∈ w.core.held, ∀ k ∈ q.payload.writtenChannel, w.core.db.channels.lookup k = none

/-- No request times out, and every call to the database succeeds. -/
structure Punctual (w : World (Table UInt8 Bytes)) (e : Core.Event) : Prop where
  timely : e.Timely w.core
  syncOpen : e.SyncOpen
  database : e.DbOk

/-- A SET_CHANNEL is answered with no CHANNEL_INFO. -/
theorem written_reply {p : Command} {k : Int} (hk : p.writtenChannel = some k)
    (hclass : ∃ code ∈ frame.head?, (awaitingFor p).classify code = (true, last)) : ¬Informs frame i := by
  rintro ⟨hcode, -⟩
  obtain ⟨code, hhead, hclass⟩ := hclass
  cases hhead.symm.trans hcode
  unfold Command.writtenChannel at hk
  split at hk
  · rename_i hset
    simp [awaitingFor, hset, Awaiting.classify] at hclass
  · cases hk

theorem push_not_informs {code : UInt8} (hcode : frame.head? = some code) (hpush : isPushEvent code = true) :
    ¬Informs frame i := by
  rintro ⟨hinfo, -⟩
  cases hcode.symm.trans hinfo
  cases hpush

/-- While a SET_CHANNEL is in flight no CHANNEL_INFO is on its way. -/
theorem Lockstep.no_channel (hl : Lockstep Radio.channelled w) {k : Int} (hq : q ∈ w.core.held)
    (hk : q.payload.writtenChannel = some k) (hf : f ∈ w.wire.back) : ¬Informs f.body i := by
  rcases hl.replies_of_quiet Radio.channelled_shaped Radio.channelled_quiet hf with
    ⟨-, code, hcode, hpush⟩ | ⟨q', -, hheld, hclass⟩
  · exact push_not_informs hcode hpush
  · rw [hheld] at hq
    cases List.mem_singleton.mp hq
    exact written_reply hk hclass

/-- A turn that handles no CHANNEL_INFO but such as are as the radio holds the channel, and none of a channel that
    is being set. -/
theorem Coherent.turned (hc : Coherent w) (ha : w.Accounted) (ha' : (w.turned c o).Accounted) (hok : e.DbOk)
    (hs : w.core.step frontend e = .ok c) (hcurrent : ∀ i f, e.Informs i f → w.radio.lookup i = some f)
    (hfree : ∀ q ∈ w.core.held, ∀ k ∈ q.payload.writtenChannel, ∀ i f, ¬e.Informs i f) : Coherent (w.turned c o) := by
  have hvalid : w.core.clients.Valid := Core.Accounted.valid ha
  have hafter {k : Int} {row : CachedChannel} (h : c.db.channels.lookup k = some row) :=
    Core.Lap.channel_after (s := ⟨w.core, frontend, e, c⟩) hvalid hs h
  constructor
  · intro k row hrow
    rcases hafter hrow with ⟨i, f, hlen, ⟨_, _, _, hidx, _⟩, -, rfl, rfl⟩ | ⟨hbefore, -⟩
    · have hi : f[1] = i := Option.some.inj ((List.getElem?_eq_getElem (by omega)).symm.trans hidx)
      exact hi ▸ rfl
    · exact hc.keyed k row hbefore
  · intro i row hrow
    rcases hafter hrow with ⟨i', f, hlen, hinforms, -, hi, rfl⟩ | ⟨hbefore, -⟩
    · obtain rfl : i = i' := UInt8.toNat.inj (by omega)
      exact ⟨f, hlen, hcurrent i f hinforms, hinforms.choose_spec.2.1, rfl⟩
    · exact hc.cached i row hbefore
  · exact hc.back
  · intro q hq k hk
    rcases held_cases ha ha' hq with hheld | hsent
    · have hnone := hc.dropped q hheld k hk
      rw [Option.eq_none_iff_forall_ne_some]
      intro row hrow
      rcases hafter hrow with ⟨i, f, -, hinforms, -⟩ | ⟨hbefore, -⟩
      · exact hfree q hheld k hk i f hinforms
      · rw [hnone] at hbefore
        cases hbefore
    · exact Core.Lap.channel_written (s := ⟨w.core, frontend, e, c⟩) hvalid hs hsent hk (hok.ok _)

/-- The radio executes a request. -/
theorem Coherent.taken (hc : Coherent w) (hl : Lockstep Radio.channelled w) (hsent : w.wire.sent = q :: rest')
    (htake : Radio.channelled.take w.radio q s) :
    Coherent { w with wire := w.wire.take q rest', radio := s } := by
  have htake : w.radio.Differs s fun i => q.payload.writtenChannel = some (i.toNat : Int) := htake
  have hq : q ∈ w.core.held := by
    obtain ⟨done, hdone⟩ := (hl.owes_of_quiet Radio.channelled_quiet).unserved_suffix
    rw [hdone, Wire.unserved, hsent]
    simp
  refine ⟨hc.keyed, fun i row hrow => ?_, fun f hf i hinforms => ?_, hc.dropped⟩
  · rcases htake i with hsame | hwritten
    · obtain ⟨frame, hlen, hframe, hcode, rfl⟩ := hc.cached i row hrow
      exact ⟨frame, hlen, hsame.trans hframe, hcode, rfl⟩
    · have hnone := hc.dropped q hq _ hwritten
      rw [hnone] at hrow
      cases hrow
  · rcases htake i with hsame | hwritten
    · exact hsame.trans (hc.back f hf i hinforms)
    · exact absurd hinforms (hl.no_channel hq hwritten hf)

/-- A frame is emitted that tells of a channel what the radio holds. -/
theorem Coherent.emitted (hc : Coherent w) {wire : Wire Queued Bytes} (hback : wire.back = w.wire.back ++ [f])
    (hf : ∀ i, Informs f.body i → w.radio.lookup i = some f.body) : Coherent { w with wire := wire } := by
  refine ⟨hc.keyed, hc.cached, fun f' hf' i hinforms => ?_, hc.dropped⟩
  rcases List.mem_append.mp (hback ▸ hf') with hf' | hf'
  · exact hc.back f' hf' i hinforms
  · obtain rfl := List.mem_singleton.mp hf'
    exact hf i hinforms

/-- What a new link brings: nothing is on it, and the tables are as before. -/
theorem Coherent.fresh (hkeyed : Core.ChannelsKeyed w.core.db)
    (hcached : ∀ i row, w.core.db.channels.lookup (UInt8.toNat i : Int) = some row → w.Holds i row)
    (hback : w.wire.back = []) (hsync : ∀ q ∈ w.core.held, q.payload.writtenChannel = none) : Coherent w := by
  refine ⟨hkeyed, hcached, fun f hf => ?_, fun q hq k hk => ?_⟩
  · rw [hback] at hf
    cases hf
  · rw [hsync q hq] at hk
    cases hk

/-! ### Runs -/

theorem Coherent.step (hc : Coherent w) (hl : Lockstep Radio.channelled w) (ha : w.Accounted) (ha' : w₁.Accounted)
    (hs : Step Radio.channelled (fun w _ e => w.Punctual e) w w₁) : Coherent w₁ := by
  cases hs with
  | @turn frontend e c hlocal hallow hs =>
    have hno (i : UInt8) (f : Bytes) : ¬e.Informs i f := fun ⟨_, he, _⟩ => by
      subst he
      cases hlocal
    exact hc.turned ha ha' hallow.database hs (fun i f h => absurd h (hno i f)) fun _ _ _ _ => hno
  | @deliver frontend env f rest c hback hallow hs =>
    have hf : f ∈ w.wire.back := by simp [hback]
    have hc₀ : Coherent (w.received rest) :=
      ⟨hc.keyed, hc.cached, fun f' hf' => hc.back f' (emitted_received hback hf'), hc.dropped⟩
    have ha₀ : (w.received rest).Accounted := ha
    refine hc₀.turned ha₀ ha' hallow.database hs ?_ ?_
    · rintro i _ ⟨_, he, hinforms⟩
      cases he
      exact hc.back f hf i hinforms
    · rintro q hq k hk i _ ⟨_, he, hinforms⟩
      cases he
      exact hl.no_channel hq hk hf hinforms
  | @relink frontend attempts c s hallow hs hradio =>
    obtain rfl : s = w.radio := hradio
    obtain ⟨sent, hj, hsync⟩ := Core.reconnectRadio_syncs hs
    have hchannels : c.db.channels = w.core.db.channels := hj.channels
    obtain ⟨hfree, hqueue⟩ := Core.failAll_drain.done_free (Core.unlinked_free (c := w.core.begin frontend))
    refine .fresh (by rw [relinked_core, Core.ChannelsKeyed, hchannels]; exact hc.keyed) (fun i row hrow => ?_) rfl
      fun q hq => ?_
    · rw [relinked_core, hchannels] at hrow
      exact hc.cached i row hrow
    · obtain ⟨es, hout, hes⟩ := hj.out
      obtain ⟨g, hslot, rfl⟩ := mem_held hq
      have hsent := (Core.reconnectRadio_sent hs hslot).1
      have hout : c.out = es := by simpa [Core.begin] using hout
      rw [hout, ← mem_sentToRadio, hes] at hsent
      exact (hsync _ hsent).writes_nothing
  | take hsent _ hradio => exact hc.taken hl hsent hradio
  | @reply q frame last s _ hradio =>
    obtain ⟨rfl, -, hcurrent⟩ := hradio
    exact hc.emitted (f := ⟨frame, some q, last⟩) rfl fun i hinforms => hcurrent i hinforms.2.1 hinforms
  | @push frame s hradio =>
    obtain ⟨rfl, code, hcode, hpush, -⟩ := hradio
    exact hc.emitted (f := ⟨frame, none, false⟩) rfl fun i hinforms => absurd hinforms (push_not_informs hcode hpush)
  | drift hradio =>
    cases hradio
    exact ⟨hc.keyed, hc.cached, hc.back, hc.dropped⟩

/-- What was cached before the proxy was started is what the radio holds. -/
structure Remembered (w : World (Table UInt8 Bytes)) : Prop where
  keyed : Core.ChannelsKeyed w.core.db
  cached : ∀ i row, w.core.db.channels.lookup (UInt8.toNat i : Int) = some row → w.Holds i row

theorem Started.coherent (hstart : Started (fun a => a.syncEnv.writerOpen = true) w) (hremembered : w.Remembered) :
    Coherent w := by
  obtain ⟨config, db, env, first, attempts, -, -, hcore, hwire, -⟩ := hstart
  refine .fresh hremembered.keyed hremembered.cached (by rw [hwire]; rfl) fun q hq => ?_
  obtain ⟨g, hslot, rfl⟩ := mem_held hq
  have hsent : .radio g.request ∈ w.core.out := (Core.start_sent hcore hslot).1
  obtain ⟨sent, hj, hsync⟩ := Core.start_syncs hcore
  obtain ⟨es, hout, hes⟩ := hj.out
  have hout : w.core.out = es := hout
  rw [hout, ← mem_sentToRadio, hes] at hsent
  exact (hsync _ hsent).writes_nothing

theorem Run.coherent (hr : Run Radio.channelled (fun w _ e => w.Punctual e) w₀ w)
    (hstart : Started (fun a => a.syncEnv.writerOpen = true) w₀) (hremembered : w₀.Remembered) : Coherent w := by
  have hopen (w : World (Table UInt8 Bytes)) (_ : List (List FrontendOp)) (e : Core.Event) (h : w.Punctual e) :
      e.SyncOpen := h.syncOpen
  refine hr.invariant (hstart.coherent hremembered) fun w₁ w₂ hr hc hs => ?_
  have hl := hr.lockstep Radio.channelled_shaped hstart hopen fun _ _ _ h => h.timely
  exact hc.step hl (hr.accounted hstart hopen).1 ((hr.step hs).accounted hstart hopen).1 hs

/-- A GET_CHANNEL that is answered from the cache gets the channel that the radio holds at that moment, and byte for
    byte up to the name's NUL where the name is kept. -/
theorem channel_served_current {cmd : ClientCommand} {cid : ClientId} {who : Option Identity} {version : UInt8}
    (hstart : Started (fun a => a.syncEnv.writerOpen = true) w₀) (hremembered : w₀.Remembered)
    (hr : Run Radio.channelled (fun w _ e => w.Punctual e) w₀ w) (hs : w.core.step frontend (.command env cmd) = .ok c)
    (hcode : cmd.payload.head? = some 0x1F) (hidx : cmd.payload[1]? = some i)
    (hsent : .client cid who version frame .cached ∈ c.out) :
    ∃ f, ∃ hlen : 50 ≤ f.length, w.radio.lookup i = some f ∧ frame = Core.channelInfoFrame (Core.channelOf f hlen) ∧
      (Core.NameKept f → frame = Core.channelReply f) := by
  have hc : Coherent w := hr.coherent hstart hremembered
  obtain ⟨-, row, hrow, rfl⟩ := Core.served_channel hc.keyed hs hcode hidx hsent
  obtain ⟨f, hlen, hf, hinfo, rfl⟩ := hc.cached i row hrow
  exact ⟨f, hlen, hf, rfl, (Core.channelInfoFrame_iff hinfo hlen).mpr⟩

/-! ### A channel that is set -/

/-- A radio with this one channel. -/
def tuned (info : Bytes) : Table UInt8 Bytes := (∅ : Table UInt8 Bytes).insert 0 info

/-- The CHANNEL_INFO of channel 0, before and after it is set. -/
def channelBefore : Bytes := 0x12 :: 0 :: List.replicate 48 7

def channelSet : Bytes := 0x12 :: 0 :: List.replicate 48 8

/-- The sync, a SET_CHANNEL of client 1, and a GET_CHANNEL of it that asks the radio. -/
def setAfterSync : List (Act (Table UInt8 Bytes)) :=
  let before := tuned channelBefore
  let after := tuned channelSet
  [.turn [[.connect]] (.command Core.sound ⟨1, 5000, 0x20 :: 0 :: List.replicate 48 8⟩),
    .take before, .reply [0x04, 0, 0, 0, 0] true before, .deliver [] Core.sound,
    .take before, .reply channelBefore true before, .deliver [] Core.sound,
    .take after, .reply [0x00] true after, .deliver [] Core.sound,
    .turn [] (.command Core.sound ⟨1, 5000, [0x1F, 0]⟩),
    .take after, .reply channelSet true after, .deliver [] Core.sound]

theorem punctual_of_undisturbed (h : w.Undisturbed frontend e) (he : e.DbOk) : w.Punctual e :=
  ⟨h.2, syncOpen_of_undisturbed w frontend e h, he⟩

theorem channel_served_current_set_run :
    ∃ w₀ ∈ boot (tuned channelBefore), w₀.Fits .channelled Undisturbed setAfterSync ∧
    w₀.core.db.channels = ∅ ∧ ∃ w ∈ w₀.acts setAfterSync,
      Except.Holds (w.core.step [] (.command Core.sound ⟨1, 5000, [0x1F, 0]⟩)) fun c =>
        .client 1 none 0 channelSet .cached ∈ c.out := by
  decide +kernel

/-- What client 1 is served then is the channel as it was set. -/
theorem channel_served_current_set : ∃ (w : World (Table UInt8 Bytes)) (c : Core) (f : Bytes),
    w.core.step [] (.command Core.sound ⟨1, 5000, [0x1F, 0]⟩) = .ok c ∧ .client 1 none 0 channelSet .cached ∈ c.out ∧
    w.radio.lookup 0 = some f ∧ ∃ hlen : 50 ≤ f.length, channelSet = Core.channelInfoFrame (Core.channelOf f hlen) := by
  obtain ⟨w₀, hboot, hfit, hempty, w, hw, hserved⟩ := channel_served_current_set_run
  obtain ⟨c, hs, hsent⟩ := hserved
  have hsound : ∀ a ∈ setAfterSync, a.Handles Core.Event.DbOk := by
    simp [setAfterSync, Act.Handles, Core.Event.DbOk, Core.sound, Core.soundAt]
  have hr : Run Radio.channelled (fun w _ e => w.Punctual e) w₀ w :=
    .of_acts hw (hfit.mono hsound fun _ _ _ => punctual_of_undisturbed)
  have hnone (k : Int) (row : CachedChannel) : w₀.core.db.channels.lookup k ≠ some row := by
    rw [hempty, AList.lookup_empty]
    exact (Option.some_ne_none row).symm
  have hremembered : w₀.Remembered :=
    ⟨fun k row hrow => absurd hrow (hnone k row), fun i row hrow => absurd hrow (hnone _ row)⟩
  obtain ⟨f, hlen, hf, hframe, -⟩ := channel_served_current (started_of_boot hboot fun _ h => h) hremembered hr
    hs rfl rfl hsent
  exact ⟨w, c, f, hs, hsent, hf, hlen, hframe⟩

end World
end CoreSplitter
