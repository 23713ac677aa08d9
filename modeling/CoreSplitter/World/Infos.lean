import CoreSplitter.Theorems.Infos
import CoreSplitter.World.Replies

/-! What the cache serves for APP_START and DEVICE_QUERY is what the radio would answer, if no setter that the core does
    not know of changes it while it is cached. -/

namespace CoreSplitter
open Bytes

/-- The commands whose acceptance changes an info: SET_ADVERT_NAME, SET_RADIO, SET_TX_POWER, SET_COORDS,
    SET_OTHER_PARAMS and IMPORT_PRIVATE_KEY the SELF_INFO, SET_DEVICE_PIN and SET_PATH_HASH_MODE the DEVICE_INFO. -/
def Info.setters : Info → List UInt8
  | selfInfo => [0x08, 0x0B, 0x0C, 0x0E, 0x26, 0x18]
  | deviceInfo => [0x25, 0x3D]

/-- What a radio would answer to APP_START and DEVICE_QUERY now. -/
structure Settings where
  selfInfo : Bytes
  deviceInfo : Bytes
  isSelf : selfInfo.head? = some 0x05
  isDevice : deviceInfo.head? = some 0x0D
deriving DecidableEq

def Settings.info (s : Settings) : Info → Bytes
  | .selfInfo => s.selfInfo
  | .deviceInfo => s.deviceInfo

theorem Settings.code (s : Settings) (k : Info) : (s.info k).head? = some k.code := by
  cases k
  · exact s.isSelf
  · exact s.isDevice

instance Info.decidableForall {p : Info → Prop} [∀ k, Decidable (p k)] : Decidable (∀ k, p k) :=
  decidable_of_iff (p .selfInfo ∧ p .deviceInfo) ⟨fun h k => by cases k <;> simp [h], fun h => ⟨h _, h _⟩⟩

/-- A quiet radio that answers in shape, whose settings change only by the setters that it accepts. -/
def Radio.settable : Radio Settings where
  take s _ s' := s' = s
  reply s q frame last s' := (∃ code ∈ frame.head?, (awaitingFor q.payload).classify code = (true, last)) ∧
    ∀ k, (frame.head? = some k.code → frame = s.info k) ∧
      (s'.info k = s.info k ∨ q.payload.code ∈ k.setters ∧ frame.head? = some 0x00)
  push s frame s' := s' = s ∧ ∃ code ∈ frame.head?, isPushEvent code = true ∧ code ≠ 0x8B
  drift s s' := s' = s
  relink s s' := s' = s

namespace Radio

section
variable {s s' : Settings} {q : Queued} {frame : Bytes} {last : Bool}

instance : Decidable (settable.take s q s') := inferInstanceAs (Decidable (s' = s))
instance : Decidable (settable.reply s q frame last s') :=
  inferInstanceAs (Decidable ((∃ code ∈ frame.head?, (awaitingFor q.payload).classify code = (true, last)) ∧
    ∀ k : Info, (frame.head? = some k.code → frame = s.info k) ∧
      (s'.info k = s.info k ∨ q.payload.code ∈ k.setters ∧ frame.head? = some 0x00)))
instance : Decidable (settable.push s frame s') :=
  inferInstanceAs (Decidable (s' = s ∧ ∃ code ∈ frame.head?, isPushEvent code = true ∧ code ≠ 0x8B))
instance : Decidable (settable.drift s s') := inferInstanceAs (Decidable (s' = s))

end

theorem settable_quiet : settable.Quiet := by
  rintro s frame s' ⟨-, code, hcode, -, hne⟩ h
  exact hne (Option.some.inj (hcode.symm.trans h))

theorem settable_shaped : settable.Shaped where
  reply _ _ _ _ _ h := h.1
  push _ _ _ h := h.2.imp fun _ h => ⟨h.1, h.2.1⟩
  telemetry := Or.inl settable_quiet

end Radio

namespace World

/-- What is cached of an info is what the radio would answer. -/
def Current (w : World Settings) (k : Info) : Prop := ∀ blob ∈ k.cached w.core, blob = w.radio.info k

/-- The acceptance of a setter is on its way. -/
def Changing (w : World Settings) (k : Info) : Prop :=
  ∃ q ∈ w.core.held, q.payload.code ∈ k.setters ∧ ∃ f ∈ w.wire.back, f.request = some q ∧ f.body.head? = some 0x00

structure Informed (w : World Settings) : Prop where
  back : ∀ f ∈ w.wire.back, ∀ k, f.body.head? = some k.code → f.body = w.radio.info k
  dropped : ∀ q ∈ w.core.held, q.payload.code ∈ Core.infoSetters → w.core.InfoDropped
  cached : w.core.radioSendTx = true → ∀ k, w.Current k ∨ w.Changing k

/-- A setter that the core does not know of is accepted only where its info is not cached, or cached as it is now. -/
def Noticed (w : World Settings) : Core.Event → Prop
  | .radio _ frame => ∀ q ∈ w.core.held, ∀ k : Info, q.payload.code ∈ k.setters → q.payload.code ∉ Core.infoSetters →
      frame.head? = some 0x00 → w.Current k
  | _ => True

instance (w : World Settings) (k : Info) : Decidable (w.Current k) :=
  inferInstanceAs (Decidable (∀ blob ∈ k.cached w.core, blob = w.radio.info k))

instance (w : World Settings) : (e : Core.Event) → Decidable (w.Noticed e)
  | .radio _ frame =>
    inferInstanceAs (Decidable (∀ q ∈ w.core.held, ∀ k : Info, q.payload.code ∈ k.setters →
      q.payload.code ∉ Core.infoSetters → frame.head? = some 0x00 → w.Current k))
  | .command .. | .timeoutTick _ | .maintenanceTick _ | .disconnected _ | .idle => isTrue trivial

/-- No request times out, and the radio answers each initialisation. -/
structure Attended (w : World Settings) (e : Core.Event) : Prop where
  timely : e.Timely w.core
  answered : ∀ attempts, e = .disconnected attempts → ∀ a ∈ attempts, a.syncEnv.writerOpen = true ∧ a.Tells w.radio.info

section
variable {w w₁ w₀ : World Settings} {c : Core} {f : Frame} {rest : List Frame} {s : Settings}
  {frontend : List (List FrontendOp)} {env : Env} {e : Core.Event} {q : Queued} {k : Info}

theorem code_not_push (k : Info) : isPushEvent k.code = false := by cases k <;> rfl

/-- A setter is answered by a single frame, which is no info. -/
theorem setter_reply (hset : q.payload.code ∈ k.setters ∨ q.payload.code ∈ Core.infoSetters)
    {code : UInt8} {last : Bool} (h : (awaitingFor q.payload).classify code = (true, last)) :
    last = true ∧ isPushEvent code = false ∧ ∀ k : Info, code ≠ k.code := by
  have hawaiting : awaitingFor q.payload = .oneOf [0x00] ∨ awaitingFor q.payload = .oneOf [0x00, 0x0F] := by
    have hcodes : q.payload.code ∈ [0x08, 0x0B, 0x0C, 0x0E, 0x26, 0x18, 0x25, 0x3D, 0x15, (0x33 : UInt8)] := by
      rcases hset with hset | hset
      · cases k <;> simp only [Info.setters, List.mem_cons, List.not_mem_nil, or_false] at hset ⊢ <;> tauto
      · simp only [Core.infoSetters, List.mem_cons, List.not_mem_nil, or_false] at hset ⊢
        tauto
    simp only [List.mem_cons, List.not_mem_nil, or_false] at hcodes
    rcases hcodes with h | h | h | h | h | h | h | h | h | h <;> simp [awaitingFor, h]
  have hcode : last = true ∧ (code = 0x01 ∨ code = 0x00 ∨ code = 0x0F) := by
    rcases hawaiting with hawaiting | hawaiting <;> rw [hawaiting] at h <;> simp [Awaiting.classify] at h <;> tauto
  rcases hcode.2 with rfl | rfl | rfl <;> exact ⟨hcode.1, rfl, fun k hk => by cases k <;> cases hk⟩

theorem Lockstep.owes_held (hl : Lockstep Radio.settable w) : w.wire.Owes w.core.held := by
  obtain ⟨early, howes, -, hquiet⟩ := hl.owes
  rwa [hquiet Radio.settable_quiet, List.nil_append] at howes

/-- A frame of the radio replies to the request in flight, or is pushed. -/
theorem Lockstep.replies (hl : Lockstep Radio.settable w) (hf : f ∈ w.wire.back) :
    (f.request = none ∧ ∃ code ∈ f.body.head?, isPushEvent code = true) ∨
    ∃ q, f.request = some q ∧ w.core.held = [q] ∧
    ∃ code ∈ f.body.head?, (awaitingFor q.payload).classify code = (true, f.last) := by
  have hemits : Radio.settable.Emits f := hl.emitted f hf
  unfold Radio.Emits at hemits
  split at hemits
  · rename_i hnone
    obtain ⟨_, _, -, code, hcode, hpush, -⟩ := hemits
    exact Or.inl ⟨hnone, code, hcode, hpush⟩
  · rename_i q hq
    obtain ⟨_, _, hshape, -⟩ := hemits
    have hmem : q ∈ w.core.held := Wire.Answers.request_mem hl.owes_held hf hq
    obtain ⟨g, hslot, rfl⟩ := mem_held hmem
    exact Or.inr ⟨_, hq, held_eq_of_slot hslot, hshape⟩

theorem handleRadioRx_link {c' : Core} {frame : Bytes} (hs : c.handleRadioRx env frame = .ok c') :
    c'.radioSendTx = c.radioSendTx := by
  rcases Core.handleRadioRx_routed hs with ⟨-, rfl⟩ | ⟨code, rest, c₁, rfl, hcache, hr⟩
  · rfl
  · have hcached : Core.Kept (Effect.Side none) c (c₁.recordRaw env code (code :: rest)) :=
      (Core.cacheResponse_kept hcache).trans Core.recordRaw_still.toKept
    have hreply (g : InFlight) :
        ((c₁.recordRaw env code (code :: rest)).deliverReply env g code (code :: rest)).radioSendTx =
        (c₁.recordRaw env code (code :: rest)).radioSendTx :=
      (Core.deliverReply_still : Core.Still (Effect.OfReply g) _ _).link
    cases hr with
    | finish g _ _ hm => exact hm.link.trans ((hreply g).trans hcached.link)
    | part g _ _ heq =>
      rw [heq]
      exact (hreply g).trans hcached.link
    | other _ hm => exact hm.link.trans hcached.link

theorem dropped_iff : c.InfoDropped ↔ ∀ k, Info.cached c k = none := by
  constructor
  · rintro ⟨hself, hdevice⟩ k
    cases k
    · exact hself
    · exact hdevice
  · exact fun h => ⟨h .selfInfo, h .deviceInfo⟩

/-- What is dropped stays so where no info arrives. -/
theorem dropped_kept {F : Bytes → Prop} {c' : Core} (hd : c.InfoDropped) (h : ∀ k, Core.Recached F k c c')
    (hF : ∀ k, ∀ frame, F frame → frame.head? ≠ some (Info.code k)) : c'.InfoDropped := by
  rw [dropped_iff] at hd ⊢
  intro k
  rcases h k with h | h | ⟨frame, hframe, hcode, -⟩
  · exact h.trans (hd k)
  · exact h
  · exact absurd hcode (hF k frame hframe)

/-- A request that was sent in this turn dropped what it changes; one that was in flight before did so then. -/
theorem Informed.dropped_step (hi : Informed w) (hs : w.core.step frontend e = .ok c)
    (hF : ∀ q ∈ w.core.held, q.payload.code ∈ Core.infoSetters → ∀ k, ∀ frame,
      (e.scope (w.core.begin frontend)).frame frame →
      frame.head? ≠ some (Info.code k)) : ∀ q ∈ c.held, q.payload.code ∈ Core.infoSetters → c.InfoDropped := by
  intro q hq hset
  obtain ⟨g, hslot, rfl⟩ := mem_held hq
  rcases Core.step_dispatched hs g hslot with ⟨g₀, hg₀, hsame, -⟩ | hsent
  · have hheld : g.request ∈ w.core.held := by
      rw [held_eq_of_slot hg₀, hsame]
      exact List.mem_singleton.mpr rfl
    exact dropped_kept (hi.dropped _ hheld hset) (fun k => Core.step_recached hs) (hF _ hheld hset)
  · exact hsent.dropped hset

/-- A turn that ends no request keeps what is in flight. -/
theorem held_kept {o : Option Frame} (ha : w.Accounted) (ha' : (w.turned c o).Accounted)
    (hended : terminated c.out = []) (hq : q ∈ w.core.held) : q ∈ c.held := by
  have hbalance := Core.Accounted.balance_step ha (by simpa [Accounted] using ha')
  rw [hended] at hbalance
  have hheld : c.held = w.core.held ++ sentToRadio c.out := hbalance.symm
  rw [hheld]
  exact List.mem_append_left _ hq

/-- What was current stays so where only current infos arrive. -/
theorem Current.recached {o : Option Frame} {F : Bytes → Prop} (h : w.Current k) (hc : Core.Recached F k w.core c)
    (hF : ∀ frame, F frame → frame.head? = some k.code → frame = w.radio.info k) : (w.turned c o).Current k := by
  intro blob hblob
  have hblob : k.cached c = some blob := hblob
  rcases hc with hc | hc | ⟨frame, hframe, hcode, hc⟩
  · exact h blob (hc ▸ hblob)
  · rw [hc] at hblob
    cases hblob
  · rw [hc] at hblob
    exact Option.some.inj hblob ▸ hF frame hframe hcode

theorem local_frame (hlocal : e.isLocal = true) (frame : Bytes) : ¬(e.scope c).frame frame := by
  cases e with
  | radio | disconnected => cases hlocal
  | command | timeoutTick | maintenanceTick | idle => exact id

/-- A turn of the core that no frame of the radio causes. -/
theorem Informed.turned (hi : Informed w) (ha : w.Accounted) (ha' : (w.turned c none).Accounted)
    (hlocal : e.isLocal = true) (htimely : e.Timely w.core) (hs : w.core.step frontend e = .ok c) :
    Informed (w.turned c none) := by
  have hvalid : w.core.clients.Valid := Core.Accounted.valid ha
  have htimely : e.Timely (w.core.begin frontend) := by cases e <;> exact htimely
  obtain ⟨hemitted, hlink, -⟩ := Core.handle_emitted (b := false) hs ⟨hvalid.born, hvalid.nodup⟩ hlocal htimely nofun
  obtain ⟨es, hout, hes⟩ : Core.Unended (w.core.begin frontend) c := hemitted.unended
  have hended : terminated c.out = [] := by simpa [hout, Core.begin] using hes
  constructor
  · exact hi.back
  · exact hi.dropped_step hs fun _ _ _ _ frame hframe => absurd hframe (local_frame hlocal frame)
  · intro hup k
    rcases hi.cached (hlink.symm.trans hup) k with hcurrent | ⟨q, hq, hset, hok⟩
    · exact Or.inl (hcurrent.recached (Core.step_recached hs) fun frame hframe =>
        absurd hframe (local_frame hlocal frame))
    · exact Or.inr ⟨q, held_kept ha ha' hended hq, hset, hok⟩

/-- While a setter is in flight no info is on its way. -/
theorem Lockstep.no_info (hl : Lockstep Radio.settable w) (hq : q ∈ w.core.held)
    (hset : q.payload.code ∈ k.setters ∨ q.payload.code ∈ Core.infoSetters) (hf : f ∈ w.wire.back) (k' : Info) :
    f.body.head? ≠ some k'.code := by
  intro hcode
  rcases hl.replies hf with ⟨-, code, hhead, hpush⟩ | ⟨q', -, hheld, code, hhead, hclass⟩
  · cases hhead.symm.trans hcode
    exact absurd (hpush.symm.trans (code_not_push k')) (by decide)
  · rw [hheld] at hq
    cases List.mem_singleton.mp hq
    exact (setter_reply hset hclass).2.2 k' (Option.some.inj (hhead.symm.trans hcode))

/-- While the acceptance of a setter is on its way behind a frame, that frame ends no request. -/
theorem Lockstep.not_ended (hl : Lockstep Radio.settable w) (ha : w.Accounted) (hq : q ∈ w.core.held)
    (hset : q.payload.code ∈ k.setters) (hback : w.wire.back = f :: rest) {f' : Frame} (hf' : f' ∈ rest)
    (hreply : f'.request = some q) (hs : w.core.step frontend (.radio env f.body) = .ok c) : terminated c.out = [] := by
  have hf : f ∈ w.wire.back := by simp [hback]
  have hawaits {g : InFlight} (hslot : w.core.inFlight = some g) :
      g.request = q ∧ g.awaiting = awaitingFor q.payload := by
    have hheld := held_eq_of_slot hslot
    rw [hheld] at hq
    cases List.mem_singleton.mp hq
    exact ⟨rfl, Core.Accounted.awaiting ha g hslot⟩
  rcases hl.replies hf with ⟨-, code, hhead, hpush⟩ | ⟨q', hrequest, hheld, code, hhead, hclass⟩
  · rcases Core.handleRadioRx_terminated hs with ⟨⟨es, hout, hes⟩, -⟩ | ⟨g, code', es, hslot, hcode', hends, -⟩
    · rw [hout]
      simpa [Core.begin] using hes
    · obtain ⟨-, hawaiting⟩ := hawaits hslot
      cases hhead.symm.trans hcode'
      rw [hawaiting] at hends
      have hnot := (setter_reply (Or.inl hset) hends).2.1
      rw [hpush] at hnot
      cases hnot
  · rw [hheld] at hq
    cases List.mem_singleton.mp hq
    have hlast := (setter_reply (Or.inl hset) hclass).1
    have howes := hl.owes_held
    rw [hheld] at howes
    rcases howes.received hback with ⟨hnone, -⟩ | ⟨_, _, -, -, hpart, -⟩ | ⟨_, _, hcons, -, -, h⟩
    · rw [hrequest] at hnone
      cases hnone
    · rw [hlast] at hpart
      cases hpart
    · cases hcons
      exact absurd (Wire.Answers.request_mem h hf' hreply) List.not_mem_nil

/-- The next frame of the radio is handled. -/
theorem Informed.delivered (hi : Informed w) (hl : Lockstep Radio.settable w) (ha : w.Accounted)
    (ha' : ((w.received rest).turned c (some f)).Accounted) (hback : w.wire.back = f :: rest)
    (hnoticed : w.Noticed (.radio env f.body)) (hs : w.core.step frontend (.radio env f.body) = .ok c) :
    Informed ((w.received rest).turned c (some f)) := by
  have hf : f ∈ w.wire.back := by simp [hback]
  have hrest : ∀ f' ∈ rest, f' ∈ w.wire.back := fun f' hf' => emitted_received hback hf'
  have hlink : c.radioSendTx = w.core.radioSendTx := handleRadioRx_link (c := w.core.begin frontend) hs
  have hcurrent {k : Info} (h : w.Current k) : ((w.received rest).turned c (some f)).Current k := by
    have h : (w.received rest).Current k := h
    refine h.recached (Core.step_recached hs) ?_
    rintro frame rfl hcode
    exact hi.back f hf k hcode
  constructor
  · exact fun f' hf' => hi.back f' (hrest f' hf')
  · refine hi.dropped_step hs fun q hq hset k frame hframe => ?_
    cases hframe
    exact hl.no_info (k := k) hq (Or.inr hset) hf k
  · intro hup k
    rcases hi.cached (hlink.symm.trans hup) k with h | ⟨q, hq, hset, f', hf', hreply, hok⟩
    · exact Or.inl (hcurrent h)
    · rw [hback] at hf'
      rcases List.mem_cons.mp hf' with rfl | hf'
      · refine Or.inl (hcurrent ?_)
        by_cases hknown : q.payload.code ∈ Core.infoSetters
        · intro blob hblob
          rw [dropped_iff.mp (hi.dropped q hq hknown) k] at hblob
          cases hblob
        · exact hnoticed q hq k hset hknown hok
      · have hended := hl.not_ended ha hq hset hback hf' hreply hs
        have ha₀ : (w.received rest).Accounted := ha
        have hq₀ : q ∈ (w.received rest).core.held := hq
        exact Or.inr ⟨q, held_kept ha₀ ha' hended hq₀, hset, f', hf', hreply, hok⟩

/-- The radio emits a frame. -/
theorem Informed.replied (hi : Informed w) (hl : Lockstep Radio.settable w) (hserving : w.wire.serving = some q)
    {frame : Bytes} {last : Bool} (hreply : Radio.settable.reply w.radio q frame last s) :
    Informed { w with wire := w.wire.reply q frame last, radio := s } := by
  obtain ⟨⟨code, hcode, hclass⟩, hinfo⟩ := hreply
  have hheld : q ∈ w.core.held := by
    obtain ⟨done, hdone⟩ := Wire.Answers.prefix_eq hl.owes_held
    rw [hdone, Wire.unserved, hserving]
    simp
  constructor
  · intro f' hf' k hf'code
    rcases List.mem_append.mp hf' with hf' | hf'
    · rcases (hinfo k).2 with hsame | ⟨hset, -⟩
      · exact hsame.symm ▸ hi.back f' hf' k hf'code
      · exact absurd hf'code (hl.no_info hheld (Or.inl hset) hf' k)
    · obtain rfl := List.mem_singleton.mp hf'
      have hf'code : frame.head? = some k.code := hf'code
      rcases (hinfo k).2 with hsame | ⟨hset, -⟩
      · exact hsame.symm ▸ (hinfo k).1 hf'code
      · exact absurd (Option.some.inj (hcode.symm.trans hf'code)) ((setter_reply (Or.inl hset) hclass).2.2 k)
  · exact hi.dropped
  · intro hup k
    rcases (hinfo k).2 with hsame | ⟨hset, hok⟩
    · rcases hi.cached hup k with h | ⟨q', hq', hset', f', hf', hf'reply⟩
      · exact Or.inl fun blob hblob => hsame.symm ▸ h blob hblob
      · exact Or.inr ⟨q', hq', hset', f', List.mem_append_left _ hf', hf'reply⟩
    · exact Or.inr ⟨q, hheld, hset, ⟨frame, some q, last⟩,
        List.mem_append_right _ (List.mem_singleton.mpr rfl), rfl, hok⟩

theorem Informed.pushed (hi : Informed w) {frame : Bytes} (hpush : Radio.settable.push w.radio frame s) :
    Informed { w with wire := w.wire.push frame, radio := s } := by
  obtain ⟨rfl, code, hcode, hispush, -⟩ := hpush
  constructor
  · intro f' hf' k hf'code
    rcases List.mem_append.mp hf' with hf' | hf'
    · exact hi.back f' hf' k hf'code
    · obtain rfl := List.mem_singleton.mp hf'
      cases hcode.symm.trans hf'code
      exact absurd (hispush.symm.trans (code_not_push k)) (by decide)
  · exact hi.dropped
  · intro hup k
    rcases hi.cached hup k with h | ⟨q', hq', hset', f', hf', hf'reply⟩
    · exact Or.inl h
    · exact Or.inr ⟨q', hq', hset', f', List.mem_append_left _ hf', hf'reply⟩

theorem cached_told {info : Info → Bytes} (h : c.infos = (some (info .selfInfo), some (info .deviceInfo))) (k : Info) :
    k.cached c = some (info k) := by
  cases k
  · exact congrArg Prod.fst h
  · exact congrArg Prod.snd h

/-- What a new link brings: nothing is on it, and the radio has told what it is, or there is none. -/
theorem Informed.fresh (hback : w.wire.back = [])
    (hdropped : ∀ q ∈ w.core.held, q.payload.code ∈ Core.infoSetters → w.core.InfoDropped)
    (htold : w.core.infos = (some (w.radio.info .selfInfo), some (w.radio.info .deviceInfo)) ∨
      w.core.radioSendTx = false) : Informed w := by
  constructor
  · rw [hback]
    exact fun _ hf => absurd hf List.not_mem_nil
  · exact hdropped
  · intro hup k
    rcases htold with htold | hdown
    · exact Or.inl fun blob hblob => Option.some.inj (hblob.symm.trans (cached_told htold k))
    · exact absurd (hup.symm.trans hdown) (by decide)

theorem relinked_dropped {attempts : List Core.Attempt} (hs : w.core.step frontend (.disconnected attempts) = .ok c)
    (hq : q ∈ c.held) (hset : q.payload.code ∈ Core.infoSetters) : c.InfoDropped := by
  obtain ⟨hfree, hqueue⟩ := Core.failAll_drain.done_free (Core.unlinked_free (c := w.core.begin frontend))
  obtain ⟨g, hslot, rfl⟩ := mem_held hq
  exact (Core.reconnectLoop_fresh hs hfree hqueue g hslot).dropped hset

/-- A step in which the core is not left waiting, and setters are noticed. -/
theorem Informed.step (hi : Informed w) (hl : Lockstep Radio.settable w) (ha : w.Accounted) (ha' : w₁.Accounted)
    (hs : Step Radio.settable (fun w _ e => w.Attended e ∧ w.Noticed e) w w₁) : Informed w₁ := by
  cases hs with
  | turn hlocal hallow hs => exact hi.turned ha ha' hlocal hallow.1.timely hs
  | deliver hback hallow hs => exact hi.delivered hl ha ha' hback hallow.2 hs
  | relink hallow hs hradio =>
    cases hradio
    refine .fresh rfl (fun q hq hset => relinked_dropped hs hq hset) ?_
    exact Core.reconnectRadio_tells w.radio.code (fun a ha => (hallow.1.answered _ rfl a ha).2) hs
  | take _ _ hradio =>
    cases hradio
    exact ⟨hi.back, hi.dropped, hi.cached⟩
  | reply hserving hradio => exact hi.replied hl hserving hradio
  | push hradio => exact hi.pushed hradio
  | drift hradio =>
    cases hradio
    exact ⟨hi.back, hi.dropped, hi.cached⟩

/-- The proxy starts with a radio that answers its initialisation. -/
def Told (w : World Settings) : Prop := Started (fun a => a.syncEnv.writerOpen = true ∧ a.Tells w.radio.info) w

theorem Told.started (h : Told w) : Started (fun a => a.syncEnv.writerOpen = true) w := by
  obtain ⟨config, db, env, first, attempts, hfirst, hattempts, hrest⟩ := h
  exact ⟨config, db, env, first, attempts, hfirst.1, fun a ha => (hattempts a ha).1, hrest⟩

theorem Told.informed (h : Told w) : Informed w := by
  obtain ⟨config, db, env, first, attempts, hfirst, hattempts, hcore, hwire, -⟩ := h
  refine .fresh (by rw [hwire]; rfl) (fun q hq hset => ?_) ?_
  · obtain ⟨g, hslot, rfl⟩ := mem_held hq
    have hset : g.payload.code ∈ Core.infoSetters := hset
    rcases (Core.start_internal hcore hslot).2 with hread | hread | hread <;> rw [hread] at hset <;>
      simp [Core.infoSetters] at hset
  · refine Core.start_tells_info w.radio.code (fun a ha => ?_) hcore
    rcases List.mem_cons.mp ha with rfl | ha
    · exact hfirst.2
    · exact (hattempts a ha).2

theorem Run.informed (hstart : Told w₀) (hr : Run Radio.settable (fun w _ e => w.Attended e ∧ w.Noticed e) w₀ w) :
    Informed w := by
  have hopen : ∀ (w : World Settings) (frontend : List (List FrontendOp)) (e : Core.Event),
      w.Attended e ∧ w.Noticed e → e.SyncOpen := by
    intro w frontend e h
    cases e with
    | disconnected attempts => exact fun a ha => (h.1.answered attempts rfl a ha).1
    | _ => trivial
  refine hr.invariant hstart.informed fun w₁ w₂ hr hi hs => ?_
  have hl := hr.lockstep Radio.settable_shaped hstart.started hopen fun _ _ _ h => h.1.timely
  exact hi.step hl (hr.accounted hstart.started hopen).1 ((hr.step hs).accounted hstart.started hopen).1 hs

theorem messageFrameFor_info {version : UInt8} {blob : Bytes} (h : blob.head? = some k.code) :
    messageFrameFor version blob = blob := by
  unfold messageFrameFor
  split
  · rfl
  · cases h
    cases k <;> rfl

/-- With no command in flight, what the cache serves for APP_START and DEVICE_QUERY is what the radio would answer, if
    setters were noticed. -/
theorem info_served {cmd : ClientCommand} {cid : ClientId} {who : Option Identity} {version : UInt8} {frame : Bytes}
    (hstart : Told w₀) (hr : Run Radio.settable (fun w _ e => w.Attended e ∧ w.Noticed e) w₀ w)
    (hup : w.core.radioSendTx = true) (hfree : w.core.inFlight = none)
    (hs : w.core.step frontend (.command env cmd) = .ok c) (hread : cmd.payload.head? = some k.request)
    (hsent : .client cid who version frame .cached ∈ c.out) : frame = w.radio.info k := by
  have hi : Informed w := hr.informed hstart
  have hcurrent : w.Current k := by
    refine (hi.cached hup k).resolve_right ?_
    rintro ⟨q, hq, -⟩
    simp [Core.held, hfree] at hq
  have hreach : Core.Reachable w.history w.core := (hr.reachable hstart.started).reachable
  obtain ⟨blob, hcached, rfl⟩ := Core.served_info hreach.told hs hread hsent
  obtain rfl : blob = w.radio.info k := hcurrent blob hcached
  exact messageFrameFor_info (w.radio.code k)

/-! ### Setters -/

/-- What the radio says of itself as the proxy starts, and later. -/
def early : Settings := ⟨[0x05], [0x0D, 9, 1, 1], rfl, rfl⟩

def powered : Settings := ⟨[0x05, 9], [0x0D, 9, 1, 1], rfl, rfl⟩

def hashed : Settings := ⟨[0x05], [0x0D, 9, 1, 2], rfl, rfl⟩

theorem told_of_boot (h : boot early = some w) : Told w := by
  obtain ⟨c, hc, rfl⟩ := Option.map_eq_some_iff.mp h
  have hanswered : Core.Attempt.Answered early.info
      ⟨true, [.frame [0x05], .frame [0x0D, 9, 1, 1]], Core.sound, Core.sound, Core.sound⟩ :=
    ⟨[], [], [], rfl, List.forall_mem_nil _, List.forall_mem_nil _⟩
  exact ⟨_, _, _, _, [], ⟨rfl, fun _ => hanswered⟩, List.forall_mem_nil _, toOption_eq_some hc, rfl, rfl⟩

/-- The sync, and a setter of client 1 that the radio accepts and that turns what it says of itself into `s`. -/
def afterSync (setter : Bytes) (s : Settings) : List (Act Settings) :=
  [.turn [[.connect]] (.command Core.sound ⟨1, 5000, setter⟩),
    .take early, .reply [0x04, 0, 0, 0, 0] true early, .deliver [] Core.sound,
    .take early, .reply [0x01, 2] true early, .deliver [] Core.sound,
    .take early, .reply [0x00] true s, .deliver [] Core.sound]

/-- SET_TX_POWER, and an APP_START that asks the radio again. -/
def power : List (Act Settings) := afterSync [0x0C, 9] powered ++
  [.turn [] (.command Core.sound ⟨1, 5000, [0x01, 1]⟩),
    .take powered, .reply [0x05, 9] true powered, .deliver [] Core.sound]

theorem attended_of_undisturbed (h : w.Undisturbed frontend e) : w.Attended e := by
  refine ⟨h.2, ?_⟩
  rintro attempts rfl
  exact h.1.elim

/-- The SELF_INFO that APP_START is served after SET_TX_POWER. -/
theorem info_served_power : ∃ (w : World Settings) (c : Core),
    w.core.step [] (.command Core.sound ⟨1, 5000, [0x01, 1]⟩) = .ok c ∧
    .client 1 (some (5000, [])) 0 [0x05, 9] .cached ∈ c.out ∧ [0x05, 9] = w.radio.info .selfInfo := by
  obtain ⟨w₀, hboot, hfit, w, hw, ⟨hup, hfree⟩, hserved⟩ : ∃ w₀ ∈ boot early,
      w₀.Fits .settable (fun w frontend e => w.Undisturbed frontend e ∧ w.Noticed e) power ∧ ∃ w ∈ w₀.acts power,
      (w.core.radioSendTx = true ∧ w.core.inFlight = none) ∧
      Except.Holds (w.core.step [] (.command Core.sound ⟨1, 5000, [0x01, 1]⟩)) fun c =>
        .client 1 (some (5000, [])) 0 [0x05, 9] .cached ∈ c.out := by
    decide +kernel
  obtain ⟨c, hs, hsent⟩ := hserved
  have hr : Run .settable (fun w _ e => w.Attended e ∧ w.Noticed e) w₀ w :=
    (Run.of_acts hw hfit).mono fun _ _ _ h => ⟨attended_of_undisturbed h.1, h.2⟩
  exact ⟨w, c, hs, hsent, info_served (k := .selfInfo) (told_of_boot hboot) hr hup hfree hs rfl hsent⟩

/-- The DEVICE_INFO that is served after SET_PATH_HASH_MODE is the one from before. -/
theorem info_stale_path_hash : ∃ (w₀ w : World Settings) (c : Core), Told w₀ ∧
    Run .settable (fun w _ e => w.Attended e) w₀ w ∧ w.core.radioSendTx = true ∧ w.core.inFlight = none ∧
    w.core.pendingQueue = [] ∧ w.core.step [] (.command Core.sound ⟨1, 5000, [0x16, 3]⟩) = .ok c ∧
    .client 1 none 3 [0x0D, 9, 1, 1] .cached ∈ c.out ∧ w.radio.info .deviceInfo = [0x0D, 9, 1, 2] := by
  obtain ⟨w₀, hboot, hfit, w, hw, ⟨hup, hfree, hqueue⟩, hradio, hserved⟩ : ∃ w₀ ∈ boot early,
      w₀.Fits .settable Undisturbed (afterSync [0x3D, 2] hashed) ∧ ∃ w ∈ w₀.acts (afterSync [0x3D, 2] hashed),
      (w.core.radioSendTx = true ∧ w.core.inFlight = none ∧ w.core.pendingQueue = []) ∧ w.radio = hashed ∧
      Except.Holds (w.core.step [] (.command Core.sound ⟨1, 5000, [0x16, 3]⟩)) fun c =>
        .client 1 none 3 [0x0D, 9, 1, 1] .cached ∈ c.out := by
    decide +kernel
  obtain ⟨c, hs, hsent⟩ := hserved
  have hr : Run .settable (fun w _ e => w.Attended e) w₀ w := (Run.of_acts hw hfit).mono fun _ _ _ h =>
    attended_of_undisturbed h
  exact ⟨w₀, w, c, told_of_boot hboot, hr, hup, hfree, hqueue, hs, hsent, hradio ▸ rfl⟩

end
end World
end CoreSplitter
