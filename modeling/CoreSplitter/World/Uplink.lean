import CoreSplitter.Protocol.Frame
import CoreSplitter.World.Link

/-! A connection to the radio from its bytes on: the reader task of `backend/tcp.rs` and `backend/serial.rs` takes
    them off the wire and frames them, and what it puts on its channel goes the way of `World.Link`. -/

namespace CoreSplitter
open Bytes

structure Uplink where
  link : Link
  parser : FrameParser
  /-- The bytes that the reader took off the wire. -/
  taken : Bytes
  /-- The bytes that the radio wrote after them. -/
  inbound : Bytes
  /-- What the parser gave and the reader has yet to send. -/
  parsed : List Bytes

namespace Uplink

def connected : Uplink := ⟨.connected, .new, [], [], []⟩

/-- The size of the reader's buffer. -/
def bufferLen : Nat := 4096

/-- The reader gets `n` bytes. -/
def read (u : Uplink) (n : Nat) : Uplink :=
  let (payloads, parser) := u.parser.feed (u.inbound.take n)
  { u with parser, taken := u.taken ++ u.inbound.take n, inbound := u.inbound.drop n, parsed := payloads }

inductive Step : Uplink → Uplink → Prop
  | arrive {u : Uplink} (bytes : Bytes) : Step u { u with inbound := u.inbound ++ bytes }
  | read {u : Uplink} {n : Nat} (hreading : u.link.reading = true) (hsent : u.parsed = []) (hpos : 0 < n)
      (hbuffer : n ≤ bufferLen) (hlen : n ≤ u.inbound.length) : Step u (u.read n)
  | send {u : Uplink} {frame : Bytes} {rest : List Bytes} (hreading : u.link.reading = true)
      (hparsed : u.parsed = frame :: rest) : Step u { u with link := u.link.receive frame, parsed := rest }
  /-- The end of the stream, or an error: the reader leaves its loop where it reads. -/
  | close {u : Uplink} (hsent : u.parsed = []) : Step u { u with link := { u.link with reading := false } }
  /-- The other tasks, and the core. -/
  | beyond {u : Uplink} {w : Link} (h : Link.Step u.link w) (hreading : w.reading = u.link.reading)
      (hreceived : w.received = u.link.received) : Step u { u with link := w }

/-- Any interleaving of the radio, the tasks and the core. -/
inductive Reach : Uplink → Prop
  | connected : Reach connected
  | step {u v : Uplink} : Reach u → Step u v → Reach v

/-- What the reader sent and has yet to send is what the bytes it took say. -/
structure Reads (u : Uplink) : Prop where
  payloads : u.link.received ++ u.parsed = (frames.readAll u.taken).1
  pending : u.parser.pending = (frames.readAll u.taken).2

section
variable {u v : Uplink} {n : Nat}

theorem connected_reads : connected.Reads where
  payloads := by rw [show connected.taken = [] from rfl, Reader.readAll_of_none rfl]; rfl
  pending := by rw [show connected.taken = [] from rfl, Reader.readAll_of_none rfl]; rfl

theorem Reads.read (h : u.Reads) (hsent : u.parsed = []) : (u.read n).Reads := by
  have hbefore := h.payloads
  rw [hsent, List.append_nil] at hbefore
  have hall : frames.readAll (u.read n).taken = (u.link.received ++ (u.read n).parsed, (u.read n).parser.pending) :=
    hbefore ▸ u.parser.feed_taken h.pending (u.inbound.take n)
  exact ⟨by rw [hall]; rfl, by rw [hall]⟩

theorem Reads.step (h : u.Reads) (hs : Step u v) : v.Reads := by
  cases hs with
  | arrive | close => exact ⟨h.payloads, h.pending⟩
  | read _ hsent => exact h.read hsent
  | @send frame rest _ hparsed =>
    refine ⟨?_, h.pending⟩
    have hgiven := h.payloads
    rw [hparsed] at hgiven
    rw [← hgiven, ← List.singleton_append, ← List.append_assoc]
    rfl
  | beyond _ _ hreceived => exact ⟨by rw [hreceived]; exact h.payloads, h.pending⟩

theorem Reach.reads (h : Reach u) : u.Reads := by
  induction h with
  | connected => exact connected_reads
  | step _ hs ih => exact ih.step hs

/-- Above the bytes, a run is one of the link. -/
theorem Reach.run (h : Reach u) : ∃ l, Link.Run .connected l u.link := by
  induction h with
  | connected => exact ⟨_, .refl _⟩
  | @step u v _ hs ih =>
    obtain ⟨l, hrun⟩ := ih
    cases hs with
    | arrive | read => exact ⟨l, hrun⟩
    | send hreading => exact ⟨_, hrun.step (.receive _ hreading)⟩
    | close => exact ⟨_, hrun.step .close⟩
    | beyond hs => exact ⟨_, hrun.step hs⟩

theorem Reach.taken_prefix (h : Reach u) : u.link.taken <+: u.link.received := by
  obtain ⟨l, hrun⟩ := h.run
  have hordered := hrun.ordered Link.connected_ordered
  have hforwarded : u.link.forwarded <+: u.link.received := by
    cases hrunning : u.link.forwarding with
    | true =>
      obtain ⟨hreceived, -⟩ := hordered.running hrunning
      exact ⟨u.link.recvRx, hreceived.symm⟩
    | false => exact (hordered.ended hrunning).1
  exact (List.prefix_append _ _).trans hforwarded

/-- Of a radio that writes encoded payloads, and any bytes between them that start no frame, the initialisation and
    `handle_radio_rx` are given these payloads in order, and all of them once they arrived and no task has more to
    do. -/
theorem heard_in_order {l : List Piece} {later : Bytes} (h : Reach u)
    (hwritten : u.taken ++ (u.inbound ++ later) = l.flatMap Piece.bytes)
    (hnoise : ∀ y ∈ l, ∀ b ∈ y.noise, b ≠ 0x3C ∧ b ≠ 0x3E) (hlen : ∀ y ∈ l, y.payload.length ≤ 65535) :
    u.link.awaited ++ u.link.handled <+: l.map Piece.payload ∧
      (u.inbound ++ later = [] → u.parsed = [] → u.link.forwarding = true → u.link.recvRx = [] →
        u.link.radioRecvRx = [] → u.link.awaited ++ u.link.handled = l.map Piece.payload) := by
  have hall : frames.readAll (u.taken ++ (u.inbound ++ later)) = (l.map Piece.payload, []) :=
    hwritten ▸ readAll_pieces hnoise hlen
  have hgiven := h.reads.payloads
  constructor
  · have hmore : (frames.readAll u.taken).1 <+: l.map Piece.payload := by
      rw [Reader.readAll_append] at hall
      exact ⟨_, congrArg Prod.fst hall⟩
    exact h.taken_prefix.trans ((List.prefix_append _ u.parsed).trans (hgiven ▸ hmore))
  · intro hnone hparsed hrunning hrecv hradio
    obtain ⟨_, hrun⟩ := h.run
    obtain ⟨hreceived, -⟩ := (hrun.ordered Link.connected_ordered).running hrunning
    rw [hnone, List.append_nil] at hall
    rw [hparsed, List.append_nil, hall, hreceived, hrecv, Link.forwarded, hradio, List.append_nil,
      List.append_nil] at hgiven
    exact hgiven

/-- A SELF_INFO for the initialisation, and a message after a byte that starts no frame. -/
theorem heard_in_order_message : ∃ u, Reach u ∧ u.link.handled = [Link.message] ∧
    u.link.awaited ++ u.link.handled = [[0x05], Link.message] := by
  let written : List Piece := [⟨[], false, [0x05]⟩, ⟨[7], false, Link.message⟩]
  have hnoise : ∀ y ∈ written, ∀ b ∈ y.noise, b ≠ 0x3C ∧ b ≠ 0x3E := by decide +kernel
  have hlen : ∀ y ∈ written, y.payload.length ≤ 65535 := by decide +kernel
  have hread : frames.readAll (written.flatMap Piece.bytes) = ([[0x05], Link.message], []) := readAll_pieces hnoise hlen
  obtain ⟨hpayloads, -, -⟩ := FrameParser.new.feed_reads (written.flatMap Piece.bytes)
  rw [FrameParser.new_pending, List.nil_append, hread] at hpayloads
  have hrun : Except.Holds (do
      let c ← Core.booted .off
      let c₁ ← c.step [] (.radio Core.sound Link.message)
      return (c, c₁)) fun _ => True := by
    decide +kernel
  obtain ⟨⟨c, c₁⟩, hrun, -⟩ := hrun
  obtain ⟨_, hboot, hrun⟩ := Except.of_bind_eq_ok hrun
  obtain ⟨_, hradio, hrun⟩ := Except.of_bind_eq_ok hrun
  cases hrun
  have harrived : Reach (Uplink.read { connected with inbound := written.flatMap Piece.bytes } 19) :=
    (Reach.connected.step (.arrive _)).step (.read rfl rfl (by decide) (by decide) (by decide))
  have hsent := (harrived.step (.send rfl hpayloads)).step (.send rfl rfl)
  have hforwarded := (hsent.step (.beyond (.forward rfl rfl) rfl rfl)).step (.beyond (.forward rfl rfl) rfl rfl)
  have hawaited := (hforwarded.step (.beyond (.await rfl rfl) rfl rfl)).step
    (.beyond (.loop rfl (Link.booted_reachable hboot)) rfl rfl)
  have hhandled := hawaited.step (.beyond (.handle rfl rfl rfl hradio) rfl rfl)
  have hnone : written.flatMap Piece.bytes ++ ([] ++ []) = written.flatMap Piece.bytes := List.append_nil _
  exact ⟨_, hhandled, rfl, (heard_in_order hhandled hnone hnoise hlen).2 rfl rfl rfl rfl rfl⟩

end
end Uplink
end CoreSplitter
