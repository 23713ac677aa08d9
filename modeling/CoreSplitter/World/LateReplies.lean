import CoreSplitter.World.Basic

/-! Late replies: what a frame of the radio is credited to, and to which request it replies. -/

namespace CoreSplitter
open Bytes

/-- The request that an effect answers, completes or accepts because of a frame of the radio. -/
def Effect.creditedTo : Effect → Option Ticket
  | .client _ _ _ _ (.reply t) | .client _ _ _ _ (.fanout t) | .client _ _ _ _ (.echo t) | .ackPending t _ => some t
  | .accepted q | .ended q (.replied _) => some q.ticket
  | _ => none

namespace Core
variable {p : Effect → Prop} {es : List Effect} {e : Effect} {t : Option Ticket} {f : InFlight} {c c' : Core}
  {env : Env} {code : UInt8} {frame : Bytes} {orderly : Prop}

theorem credited_of_about (hlane : e.laneEvent = none) : e.creditedTo = none ∨ e.creditedTo = e.about := by
  rcases e with ⟨_, _, _, _, _ | _ | _ | _ | _ | _ | _ | _⟩ | _ | _ | _ | _ | ⟨_, _ | _⟩ | _ | _ | _
  all_goals first
    | exact Or.inl rfl
    | exact Or.inr rfl
    | cases hlane

theorem Side.credited (h : e.Side t) : e.creditedTo = none ∨ e.creditedTo = t := by
  rcases credited_of_about h.lane with hc | hc
  · exact Or.inl hc
  · exact hc ▸ h.about

theorem OfReply.credited (h : e.OfReply f) : e.creditedTo = none ∨ e.creditedTo = some f.ticket := by
  rcases credited_of_about h.lane with hc | hc
  · exact Or.inl hc
  · exact Or.inr (hc.trans h.about)

theorem EmittedByMove.credited {b : Bool} (h : EmittedByMove b t e) : e.creditedTo = none ∨ e.creditedTo = t := by
  cases h with
  | side h => exact Side.credited h
  | relay h => exact (credited_of_about h.lane).elim Or.inl fun hc => Or.inl (hc.trans h.about)
  | error h =>
    obtain ⟨_, _, _, _, -, rfl⟩ := h
    exact Or.inl rfl
  | handed | radio | sendFailed | clientGone => exact Or.inl rfl

/-- What `c` emitted on its way to `c'` is credited to `t` if to anything. -/
def Credits (t : Option Ticket) (c c' : Core) : Prop :=
  ∃ es, c'.out = c.out ++ es ∧ ∀ e ∈ es, e.creditedTo = none ∨ e.creditedTo = t

theorem Credits.trans {c₁ : Core} (h₁ : Credits t c c₁) (h₂ : Credits t c₁ c') : Credits t c c' := by
  obtain ⟨es₁, ho₁, hs₁⟩ := h₁
  obtain ⟨es₂, ho₂, hs₂⟩ := h₂
  refine ⟨es₁ ++ es₂, by rw [ho₂, ho₁, List.append_assoc], fun e he => ?_⟩
  exact (List.mem_append.mp he).elim (hs₁ e) (hs₂ e)

theorem Kept.credits (h : Kept p c c') (hp : ∀ e, p e → e.creditedTo = none ∨ e.creditedTo = t) : Credits t c c' :=
  h.out.imp fun _ h => ⟨h.1, fun e he => hp e (h.2 e he)⟩

theorem Moves.credits (h : Moves orderly env t c c') : Credits t c c' :=
  h.out.imp fun _ h => ⟨h.1, fun e he => (h.2 e he).credited⟩

theorem deliverReply_credits : Credits (some f.ticket) c (c.deliverReply env f code frame) :=
  deliverReply_still.toKept.credits fun _ he => OfReply.credited he

theorem finish_credits : Credits (some f.ticket) c (c.finish env f code frame) := by
  obtain ⟨es, hout, hes⟩ : Credits (some f.ticket) c (c.deliverReply env f code frame) := deliverReply_credits
  refine ⟨es ++ [.ended f.request (.replied code)], ?_, fun e he => ?_⟩
  · rw [← List.append_assoc, ← hout]
    rfl
  · rcases List.mem_append.mp he with he | he
    · exact hes e he
    · exact List.mem_singleton.mp he ▸ Or.inr rfl

theorem Routed.credits (h : Routed env code frame c c') : Credits none c c' ∨
    ∃ f, c.inFlight = some f ∧ (f.awaiting.classify code).1 = true ∧ Credits (some f.ticket) c c' := by
  cases h with
  | finish f hslot hcode h => exact Or.inr ⟨f, hslot, by rw [hcode], finish_credits.trans h.credits⟩
  | part f hslot hcode h => exact Or.inr ⟨f, hslot, by rw [hcode], h ▸ deliverReply_credits⟩
  | other _ h => exact Or.inl h.credits

/-- A frame is credited to nothing, or to the request in flight, which awaits its code. -/
theorem handleRadioRx_credits (h : c.handleRadioRx env frame = .ok c') : Credits none c c' ∨
    ∃ f code, c.inFlight = some f ∧ frame.head? = some code ∧ (f.awaiting.classify code).1 = true ∧
      Credits (some f.ticket) c c' := by
  rcases handleRadioRx_routed h with ⟨-, rfl⟩ | ⟨code, rest, c₁, rfl, hcache, hr⟩
  · exact Or.inl ⟨[], (List.append_nil _).symm, List.forall_mem_nil _⟩
  · have hcached {t : Option Ticket} : Kept (Effect.Side t) c (c₁.recordRaw env code (code :: rest)) :=
      (cacheResponse_kept hcache).trans recordRaw_still.toKept
    have hbefore {t : Option Ticket} : Credits t c (c₁.recordRaw env code (code :: rest)) :=
      hcached.credits fun _ he => Side.credited he
    rcases hr.credits with hr | ⟨f, hslot, hcode, hr⟩
    · exact Or.inl (hbefore.trans hr)
    · have hslot' : c.inFlight = some f := (hcached (t := none)).slot ▸ hslot
      exact Or.inr ⟨f, code, hslot', rfl, hcode, hbefore.trans hr⟩

end Core

namespace World
variable {σ : Type} {R : Radio σ} {q : Core.Attempt → Prop} {w₀ w : World σ}

/-- A reply that is handled while another request is in flight has a code that this request does not await. -/
def Unmistaken (w : World σ) (_ : List (List FrontendOp)) : Core.Event → Prop
  | .radio _ frame => ∀ f ∈ w.core.inFlight, ∀ fr ∈ w.wire.back.head?, ∀ q ∈ fr.request, q ≠ f.request →
      ∀ code ∈ frame.head?, (f.awaiting.classify code).1 = false
  | _ => True

instance : (w : World σ) → (frontend : List (List FrontendOp)) → (e : Core.Event) → Decidable (Unmistaken w frontend e)
  | w, _, .radio _ frame => inferInstanceAs (Decidable (∀ f ∈ w.core.inFlight, ∀ fr ∈ w.wire.back.head?,
      ∀ q ∈ fr.request, q ≠ f.request → ∀ code ∈ frame.head?, (f.awaiting.classify code).1 = false))
  | _, _, .command .. | _, _, .timeoutTick _ | _, _, .maintenanceTick _ | _, _, .disconnected _ | _, _, .idle =>
    isTrue trivial

/-- What the replies to a request are credited to. -/
def RepliesCredited (w : World σ) : Prop :=
  ∀ fr es, (some fr, es) ∈ w.log → ∀ q ∈ fr.request, ∀ e ∈ es, ∀ t ∈ e.creditedTo, t = q.ticket

theorem RepliesCredited.turned {c : Core} {f : Option Frame} (h : w.RepliesCredited)
    (hnew : ∀ fr ∈ f, ∀ q ∈ fr.request, ∀ e ∈ c.out, ∀ t ∈ e.creditedTo, t = q.ticket) :
    (w.turned c f).RepliesCredited := by
  intro fr es hmem q hq e he t ht
  rcases List.mem_append.mp hmem with hmem | hmem
  · exact h fr es hmem q hq e he t ht
  · cases List.mem_singleton.mp hmem
    exact hnew fr rfl q hq e he t ht

/-- A reply answers, completes and accepts the request it replies to and no other, as long as none is handled
    while another request awaits its code. -/
theorem late_reply_credits (hstart : Started q w₀) (hr : Run R Unmistaken w₀ w) : w.RepliesCredited := by
  refine hr.invariant (P := RepliesCredited) ?_ fun w₁ w₂ _ ih hs => ?_
  · obtain ⟨_, _, _, _, _, -, -, -, -, hlog⟩ := hstart
    intro fr es hmem
    rw [hlog] at hmem
    cases List.mem_singleton.mp hmem
  · cases hs with
    | turn => exact ih.turned nofun
    | @deliver frontend env f rest c hback hallow hs =>
      have hreceived : (w₁.received rest).RepliesCredited := ih
      refine hreceived.turned fun fr hfr q hq e he t ht => ?_
      obtain rfl := Option.some.inj hfr
      rcases Core.handleRadioRx_credits hs with ⟨es, hout, hes⟩ | ⟨g, code, hslot, hcode, hmatch, es, hout, hes⟩
      · have he : e ∈ es := by simpa [hout, Core.begin] using he
        rcases hes e he with hnone | hnone <;> rw [hnone] at ht <;> cases ht
      · have he : e ∈ es := by simpa [hout, Core.begin] using he
        -- The frame matched the request in flight, so it replies to that one.
        have hsame : q = g.request := by
          by_contra hne
          have hunmatched := hallow g hslot f (by simp [hback]) q hq hne code hcode
          rw [hunmatched] at hmatch
          cases hmatch
        rcases hes e he with hnone | hsome
        · rw [hnone] at ht
          cases ht
        · rw [hsome] at ht
          exact hsame ▸ (Option.some.inj ht).symm
    | relink =>
      intro fr es hmem q hq e he t ht
      rcases List.mem_append.mp hmem with hmem | hmem
      · exact ih fr es hmem q hq e he t ht
      · cases List.mem_singleton.mp hmem
    | take | reply | push | drift => exact ih

/-- The END of a GET_CONTACTS that timed out, while a GET_CHANNEL is in flight. -/
def endTooLate : List (Act Unit) :=
  [.turn [] (.timeoutTick (Core.soundAt 5000)), .take (), .reply [0x04, 0, 0, 0, 0] true (),
    .deliver [] (Core.soundAt 5000)]

theorem late_reply_credits_end : ∃ w : World Unit, w.RepliesCredited ∧
    w.log.getLast? = some (some ⟨[0x04, 0, 0, 0, 0], some ⟨none, .mk' 0x04 [], 0⟩, true⟩, []) ∧
    w.core.inFlight.map InFlight.request = some ⟨none, .mk' 0x1F [0], 1⟩ := by
  obtain ⟨w₀, w, hstart, hr, hlog⟩ : ∃ w₀ w : World Unit, Started (fun _ => True) w₀ ∧ Run .any Unmistaken w₀ w ∧
      (w.log.getLast? = some (some ⟨[0x04, 0, 0, 0, 0], some ⟨none, .mk' 0x04 [], 0⟩, true⟩, []) ∧
        w.core.inFlight.map InFlight.request = some ⟨none, .mk' 0x1F [0], 1⟩) :=
    exists_run (s := ()) (l := endTooLate) (by decide +kernel) fun _ _ => trivial
  exact ⟨w, late_reply_credits hstart hr, hlog⟩

/-- The node name that client 1 sets is not confirmed in time; when its OK comes, client 2 waits for one. -/
def okTooLate : List (Act Unit) :=
  [.turn [[.connect]] (.command Core.sound ⟨1, 5000, [0x08, 0x61]⟩),
    .take (), .reply [0x04, 0, 0, 0, 0] true (), .deliver [] Core.sound,
    .take (), .reply [0x01] true (), .deliver [] Core.sound,
    .turn [[.connect]] (.command Core.sound ⟨2, 5000, [0x0C, 22]⟩),
    .turn [] (.timeoutTick (Core.soundAt 5000)), .take (), .reply [0x00] true (), .deliver [] (Core.soundAt 5000)]

theorem late_ok_credited_to_other : ∃ w₀ w : World Unit, Started (fun _ => True) w₀ ∧
    Run .any (fun _ _ _ => True) w₀ w ∧
    w.log.getLast? = some (some ⟨[0x00], some ⟨some 1, .mk' 0x08 [0x61], 2⟩, true⟩,
      [.client 2 none 0 [0x00] (.reply 3), .ended ⟨some 2, .mk' 0x0C [22], 3⟩ (.replied 0x00),
        .accepted ⟨some 2, .mk' 0x0C [22], 3⟩]) ∧
    ¬ w.RepliesCredited := by
  obtain ⟨w₀, w, hstart, hr, hlog⟩ : ∃ w₀ w : World Unit, Started (fun _ => True) w₀ ∧
      Run .any (fun _ _ _ => True) w₀ w ∧
      w.log.getLast? = some (some ⟨[0x00], some ⟨some 1, .mk' 0x08 [0x61], 2⟩, true⟩,
        [.client 2 none 0 [0x00] (.reply 3), .ended ⟨some 2, .mk' 0x0C [22], 3⟩ (.replied 0x00),
          .accepted ⟨some 2, .mk' 0x0C [22], 3⟩]) :=
    exists_run (s := ()) (l := okTooLate) (by decide +kernel) fun _ _ => trivial
  refine ⟨w₀, w, hstart, hr, hlog, fun h => ?_⟩
  have hmem := List.mem_of_getLast? hlog
  exact absurd (h _ _ hmem _ rfl (.accepted ⟨some 2, .mk' 0x0C [22], 3⟩) (by simp) 3 rfl) (by decide)

end World
end CoreSplitter
