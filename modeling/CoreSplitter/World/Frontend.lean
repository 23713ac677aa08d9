import CoreSplitter.Core.State
import CoreSplitter.Protocol.Frame

/-! The frontend (`frontend/tcp.rs`): its listener, and for each client a handler with a reader task, between the
    clients' sockets and the channel that the core takes commands from. The writer task stands in `World.Writer`. -/

namespace CoreSplitter
open Bytes

/-- How far `handle_client` is. -/
inductive Phase
  /-- The handler has its id, and is not in `direct_map` yet. -/
  | spawned
  | running
  /-- One of its tasks ended, or the radio is down. -/
  | closing
  | ended
deriving DecidableEq, Repr

/-- A handler and its reader task. -/
structure Conn where
  localPort : UInt16
  phase : Phase
  /-- The reader is in its loop. -/
  reading : Bool
  parser : FrameParser
  /-- The bytes that the reader took from the socket. -/
  taken : Bytes
  /-- The bytes that the client sent after them. -/
  inbound : Bytes
  /-- What the parser gave and the reader has yet to send. -/
  parsed : List Bytes

/-- A client was accepted. -/
def Conn.new (localPort : UInt16) : Conn := ⟨localPort, .spawned, false, .new, [], [], []⟩

/-- The reader gets `n` bytes. -/
def Conn.read (x : Conn) (n : Nat) : Conn :=
  let (payloads, parser) := x.parser.feed (x.inbound.take n)
  { x with parser, taken := x.taken ++ x.inbound.take n, inbound := x.inbound.drop n, parsed := payloads }

/-- What the reader sent and has yet to send is what the bytes it took say. -/
structure Conn.Reads (x : Conn) (payloads : List Bytes) : Prop where
  payloads : payloads ++ x.parsed = (frames.readAll x.taken).1
  pending : x.parser.pending = (frames.readAll x.taken).2
  waiting : x.parser.Waiting

theorem Conn.Reads.read {x : Conn} {payloads : List Bytes} {n : Nat} (h : Conn.Reads x payloads)
    (hsent : x.parsed = []) : Conn.Reads (x.read n) payloads := by
  obtain ⟨-, -, hwaiting⟩ := x.parser.feed_reads (x.inbound.take n)
  have hbefore := h.payloads
  rw [hsent, List.append_nil] at hbefore
  have hall : frames.readAll (x.read n).taken = (payloads ++ (x.read n).parsed, (x.read n).parser.pending) :=
    hbefore ▸ x.parser.feed_taken h.pending (x.inbound.take n)
  exact ⟨by rw [hall], by rw [hall], hwaiting⟩

structure Front where
  /-- The value of `radio_up_rx`. -/
  radioUp : Bool
  listening : Bool
  /-- `NEXT_CLIENT_ID`. -/
  nextId : ClientId
  /-- All handlers that were spawned. -/
  conns : Table ClientId Conn
  directMap : List ClientId
  /-- The channel to the core. -/
  commands : List ClientCommand
  /-- What the core was given. -/
  handled : List ClientCommand

namespace Front

def initial : Front := ⟨false, false, 1, ∅, [], [], []⟩

def put (s : Front) (id : ClientId) (x : Conn) : Front := { s with conns := s.conns.insert id x }

/-- The size of the reader's buffer. -/
def bufferLen : Nat := 4096

/-- A step of one of the tasks, of the clients or of the core. -/
inductive Step : Front → Front → Prop
  | radio {s : Front} (up : Bool) : Step s { s with radioUp := up }
  /-- Every address was bound. -/
  | listen {s : Front} (hup : s.radioUp = true) : Step s { s with listening := true }
  | unlisten {s : Front} (hdown : s.radioUp = false) : Step s { s with listening := false }
  | accept {s : Front} (port : UInt16) (hlistening : s.listening = true) :
      Step s { s.put s.nextId (.new port) with nextId := s.nextId + 1 }
  | register {s : Front} {id : ClientId} {x : Conn} (hconn : s.conns.lookup id = some x) (hphase : x.phase = .spawned) :
      Step s { s.put id { x with phase := .running, reading := true } with directMap := s.directMap ++ [id] }
  | arrive {s : Front} {id : ClientId} {x : Conn} (hconn : s.conns.lookup id = some x) (bytes : Bytes) :
      Step s (s.put id { x with inbound := x.inbound ++ bytes })
  | read {s : Front} {id : ClientId} {x : Conn} {n : Nat} (hconn : s.conns.lookup id = some x)
      (hreading : x.reading = true) (hsent : x.parsed = []) (hpos : 0 < n) (hbuffer : n ≤ bufferLen)
      (hlen : n ≤ x.inbound.length) : Step s (s.put id (x.read n))
  | send {s : Front} {id : ClientId} {x : Conn} {payload : Bytes} {rest : List Bytes}
      (hconn : s.conns.lookup id = some x) (hparsed : x.parsed = payload :: rest) :
      Step s { s.put id { x with parsed := rest } with commands := s.commands ++ [⟨id, x.localPort, payload⟩] }
  /-- The end of the stream, an error, or the abort, which stops the reader where it waits. -/
  | stop {s : Front} {id : ClientId} {x : Conn} (hconn : s.conns.lookup id = some x) (hsent : x.parsed = []) :
      Step s (s.put id { x with reading := false })
  | finish {s : Front} {id : ClientId} {x : Conn} (hconn : s.conns.lookup id = some x) (hphase : x.phase = .running) :
      Step s (s.put id { x with phase := .closing })
  | remove {s : Front} {id : ClientId} {x : Conn} (hconn : s.conns.lookup id = some x) (hphase : x.phase = .closing) :
      Step s { s.put id { x with phase := .ended } with directMap := s.directMap.filter (· ≠ id) }
  | take {s : Front} {cmd : ClientCommand} {rest : List ClientCommand} (hcommands : s.commands = cmd :: rest) :
      Step s { s with commands := rest, handled := s.handled ++ [cmd] }

/-- Any interleaving of the tasks. -/
inductive Reach : Front → Prop
  | initial : Reach initial
  | step {s t : Front} : Reach s → Step s t → Reach t

/-- The payloads of one client. -/
def payloadsOf (id : ClientId) (l : List ClientCommand) : List Bytes := (l.filter (·.clientId = id)).map (·.payload)

/-- What was sent to the core so far. -/
def sent (s : Front) : List ClientCommand := s.handled ++ s.commands

structure Inv (s : Front) : Prop where
  known : ∀ id x, s.conns.lookup id = some x → id < s.nextId
  /-- No reader runs before its handler is registered. -/
  spawned : ∀ id x, s.conns.lookup id = some x → x.phase = .spawned → x.reading = false ∧ x.parsed = []
  registered : ∀ id, id ∈ s.directMap ↔ ∃ x, s.conns.lookup id = some x ∧ (x.phase = .running ∨ x.phase = .closing)
  nodup : s.directMap.Nodup
  origin : ∀ cmd ∈ s.sent, ∃ x, s.conns.lookup cmd.clientId = some x ∧ x.phase ≠ .spawned ∧ x.localPort = cmd.localPort
  reads : ∀ id x, s.conns.lookup id = some x → Conn.Reads x (payloadsOf id s.sent)

section
variable {s t : Front} {id id' : ClientId} {x x' : Conn} {l l' : List ClientCommand} {cmd : ClientCommand}

@[simp] theorem payloadsOf_nil : payloadsOf id [] = [] := rfl

@[simp] theorem payloadsOf_append : payloadsOf id (l ++ l') = payloadsOf id l ++ payloadsOf id l' := by
  simp [payloadsOf]

theorem payloadsOf_singleton : payloadsOf id [cmd] = if cmd.clientId = id then [cmd.payload] else [] := by
  by_cases h : cmd.clientId = id <;> simp [payloadsOf, h]

@[simp] theorem put_nextId : (s.put id x).nextId = s.nextId := rfl
@[simp] theorem put_directMap : (s.put id x).directMap = s.directMap := rfl
@[simp] theorem put_sent : (s.put id x).sent = s.sent := rfl

theorem lookup_put : (s.put id x).conns.lookup id' = if id' = id then some x else s.conns.lookup id' :=
  Table.lookup_insert_eq

/-- A handler goes on, and sends nothing. -/
theorem Inv.put {m : List ClientId} (hi : s.Inv) (hconn : s.conns.lookup id = some x)
    (hport : x'.localPort = x.localPort)
    (hspawned : x'.phase = .spawned → x.phase = .spawned ∧ x'.reading = false ∧ x'.parsed = [])
    (hmap : ∀ id', id' ∈ m ↔ if id' = id then x'.phase = .running ∨ x'.phase = .closing else id' ∈ s.directMap)
    (hnodup : m.Nodup) (hreads : Conn.Reads x' (payloadsOf id s.sent)) : Inv { s.put id x' with directMap := m } := by
  have hlookup (id' : ClientId) : AList.lookup id' { s.put id x' with directMap := m }.conns =
      if id' = id then some x' else s.conns.lookup id' := lookup_put
  constructor
  · intro id' y hy
    rw [hlookup] at hy
    split at hy
    · rename_i heq
      exact heq ▸ hi.known id x hconn
    · exact hi.known id' y hy
  · intro id' y hy
    rw [hlookup] at hy
    split at hy
    · cases hy
      exact fun h => (hspawned h).2
    · exact hi.spawned id' y hy
  · intro id'
    show id' ∈ m ↔ _
    rw [hmap, hlookup]
    split
    · simp
    · exact hi.registered id'
  · exact hnodup
  · intro cmd hcmd
    obtain ⟨y, hy, hstarted, hyport⟩ := hi.origin cmd hcmd
    rw [hlookup]
    split
    · rename_i heq
      rw [heq] at hy
      cases hconn.symm.trans hy
      exact ⟨x', rfl, fun h => hstarted (hspawned h).1, hport.trans hyport⟩
    · exact ⟨y, hy, hstarted, hyport⟩
  · intro id' y hy
    rw [hlookup] at hy
    split at hy
    · rename_i heq
      cases hy
      exact heq ▸ hreads
    · exact hi.reads id' y hy

/-- The same where the handler stays as far as it is. -/
theorem Inv.put_same (hi : s.Inv) (hconn : s.conns.lookup id = some x) (hphase : x'.phase = x.phase)
    (hport : x'.localPort = x.localPort) (hspawned : x.phase = .spawned → x'.reading = false ∧ x'.parsed = [])
    (hreads : Conn.Reads x' (payloadsOf id s.sent)) : (s.put id x').Inv := by
  refine hi.put (m := s.directMap) hconn hport (fun h => ⟨hphase ▸ h, hspawned (hphase ▸ h)⟩) (fun id' => ?_)
    hi.nodup hreads
  split
  · rename_i heq
    rw [heq, hi.registered, hphase]
    simp [hconn]
  · rfl

/-- No command is about an id that was not given yet. -/
theorem Inv.payloadsOf_next (hi : s.Inv) : payloadsOf s.nextId s.sent = [] := by
  rw [payloadsOf, List.map_eq_nil_iff, List.filter_eq_nil_iff]
  intro cmd hcmd hid
  obtain ⟨x, hx, -⟩ := hi.origin cmd hcmd
  have hlt := hi.known _ x hx
  rw [of_decide_eq_true hid] at hlt
  exact absurd hlt (Nat.lt_irrefl _)

theorem Inv.accept (hi : s.Inv) (port : UInt16) : Inv { s.put s.nextId (.new port) with nextId := s.nextId + 1 } := by
  have hlookup (id' : ClientId) : AList.lookup id' { s.put s.nextId (.new port) with nextId := s.nextId + 1 }.conns =
      if id' = s.nextId then some (.new port) else s.conns.lookup id' := lookup_put
  have hfresh (x : Conn) : s.conns.lookup s.nextId ≠ some x := fun hx => Nat.lt_irrefl _ (hi.known _ x hx)
  constructor
  · intro id' y hy
    show id' < s.nextId + 1
    rw [hlookup] at hy
    split at hy
    · rename_i heq
      exact heq ▸ Nat.lt_succ_self _
    · exact Nat.lt_succ_of_lt (hi.known id' y hy)
  · intro id' y hy
    rw [hlookup] at hy
    split at hy
    · cases hy
      exact fun _ => ⟨rfl, rfl⟩
    · exact hi.spawned id' y hy
  · intro id'
    show id' ∈ s.directMap ↔ _
    rw [hi.registered, hlookup]
    split
    · rename_i heq
      subst heq
      simp [hfresh, Conn.new]
    · rfl
  · exact hi.nodup
  · intro cmd hcmd
    obtain ⟨y, hy, hrest⟩ := hi.origin cmd hcmd
    have hne : cmd.clientId ≠ s.nextId := Nat.ne_of_lt (hi.known _ y hy)
    exact ⟨y, by rw [hlookup, if_neg hne, hy], hrest⟩
  · intro id' y hy
    rw [hlookup] at hy
    split at hy
    · rename_i heq
      cases hy
      have hnone : payloadsOf s.nextId s.sent = [] := hi.payloadsOf_next
      have hempty : frames.readAll [] = ([], []) := Reader.readAll_of_none rfl
      exact ⟨by show payloadsOf id' s.sent ++ [] = _; rw [heq, hnone, Conn.new, hempty]; rfl,
        by rw [Conn.new, hempty]; rfl, FrameParser.new_waiting⟩
    · exact hi.reads id' y hy

/-- A reader sends what it parsed first. -/
theorem Inv.send {payload : Bytes} {rest : List Bytes} (hi : s.Inv) (hconn : s.conns.lookup id = some x)
    (hparsed : x.parsed = payload :: rest) :
    Inv { s.put id { x with parsed := rest } with commands := s.commands ++ [⟨id, x.localPort, payload⟩] } := by
  let t : Front := { s.put id { x with parsed := rest } with commands := s.commands ++ [⟨id, x.localPort, payload⟩] }
  have hlookup (id' : ClientId) : t.conns.lookup id' = if id' = id then some { x with parsed := rest }
    else s.conns.lookup id' := lookup_put
  have hsent : t.sent = s.sent ++ [⟨id, x.localPort, payload⟩] := (List.append_assoc ..).symm
  have hstarted : x.phase ≠ .spawned := fun h => by
    rw [(hi.spawned id x hconn h).2] at hparsed
    cases hparsed
  constructor
  · intro id' y hy
    rw [hlookup] at hy
    split at hy
    · rename_i heq
      exact heq ▸ hi.known id x hconn
    · exact hi.known id' y hy
  · intro id' y hy
    rw [hlookup] at hy
    split at hy
    · cases hy
      exact fun h => absurd h hstarted
    · exact hi.spawned id' y hy
  · intro id'
    show id' ∈ s.directMap ↔ _
    rw [hi.registered, hlookup]
    split
    · rename_i heq
      subst heq
      simp [hconn]
    · rfl
  · exact hi.nodup
  · intro cmd hcmd
    rw [hsent] at hcmd
    rw [hlookup]
    rcases List.mem_append.mp hcmd with hcmd | hcmd
    · obtain ⟨y, hy, hrest⟩ := hi.origin cmd hcmd
      split
      · rename_i heq
        rw [heq] at hy
        cases hconn.symm.trans hy
        exact ⟨_, rfl, hrest⟩
      · exact ⟨y, hy, hrest⟩
    · obtain rfl := List.mem_singleton.mp hcmd
      exact ⟨_, if_pos rfl, hstarted, rfl⟩
  · intro id' y hy
    rw [hlookup] at hy
    rw [hsent, payloadsOf_append, payloadsOf_singleton]
    split at hy
    · rename_i heq
      cases hy
      have hreads := hi.reads id x hconn
      rw [if_pos heq.symm, heq]
      refine ⟨?_, hreads.pending, hreads.waiting⟩
      rw [List.append_assoc, ← hreads.payloads, hparsed]
      rfl
    · rename_i hne
      rw [if_neg (Ne.symm hne), List.append_nil]
      exact hi.reads id' y hy

theorem Inv.step (hi : s.Inv) (hs : Step s t) : t.Inv := by
  cases hs with
  | radio | listen | unlisten => exact ⟨hi.known, hi.spawned, hi.registered, hi.nodup, hi.origin, hi.reads⟩
  | accept port => exact hi.accept port
  | @register id x hconn hphase =>
    have hnew : id ∉ s.directMap := fun h => by
      obtain ⟨y, hy, hrunning⟩ := (hi.registered id).mp h
      cases hconn.symm.trans hy
      simp [hphase] at hrunning
    refine hi.put hconn rfl nofun (fun id' => ?_) ?_ ?_
    · by_cases heq : id' = id <;> simp [heq]
    · exact List.nodup_append.mpr ⟨hi.nodup, List.nodup_singleton _, fun a ha b hb heq =>
        hnew (List.mem_singleton.mp hb ▸ heq ▸ ha)⟩
    · exact ⟨(hi.reads id x hconn).payloads, (hi.reads id x hconn).pending, (hi.reads id x hconn).waiting⟩
  | @arrive id x hconn bytes =>
    exact hi.put_same hconn rfl rfl (hi.spawned id x hconn)
      ⟨(hi.reads id x hconn).payloads, (hi.reads id x hconn).pending, (hi.reads id x hconn).waiting⟩
  | @read id x n hconn hreading hsent =>
    have hstarted : x.phase ≠ .spawned := fun h => by
      rw [(hi.spawned id x hconn h).1] at hreading
      cases hreading
    exact hi.put_same hconn rfl rfl (fun h => absurd h hstarted) ((hi.reads id x hconn).read hsent)
  | send hconn hparsed => exact hi.send hconn hparsed
  | @stop id x hconn hsent =>
    exact hi.put_same hconn rfl rfl (fun _ => ⟨rfl, hsent⟩)
      ⟨(hi.reads id x hconn).payloads, (hi.reads id x hconn).pending, (hi.reads id x hconn).waiting⟩
  | @finish id x hconn hphase =>
    refine hi.put (m := s.directMap) hconn rfl nofun (fun id' => ?_) hi.nodup
      ⟨(hi.reads id x hconn).payloads, (hi.reads id x hconn).pending, (hi.reads id x hconn).waiting⟩
    split
    · rename_i heq
      rw [heq, hi.registered]
      simp [hconn, hphase]
    · rfl
  | @remove id x hconn hphase =>
    refine hi.put hconn rfl nofun (fun id' => ?_) (hi.nodup.filter _)
      ⟨(hi.reads id x hconn).payloads, (hi.reads id x hconn).pending, (hi.reads id x hconn).waiting⟩
    by_cases heq : id' = id <;> simp [heq]
  | @take cmd rest hcommands =>
    have hsent : Front.sent { s with commands := rest, handled := s.handled ++ [cmd] } = s.sent := by
      simp [Front.sent, hcommands]
    exact ⟨hi.known, hi.spawned, hi.registered, hi.nodup, fun cmd hcmd => hi.origin cmd (hsent ▸ hcmd),
      fun id x hx => by rw [hsent]; exact hi.reads id x hx⟩

theorem Reach.inv (h : Reach s) : s.Inv := by
  induction h with
  | initial => exact ⟨nofun, nofun, fun id => ⟨nofun, fun ⟨_, h, _⟩ => nomatch h⟩, List.nodup_nil, nofun, nofun⟩
  | step _ hs ih => exact ih.step hs

/-! ### What the core is given -/

theorem Inv.sent_prefix (hi : s.Inv) (hconn : s.conns.lookup id = some x) :
    payloadsOf id s.handled <+: (frames.readAll x.taken).1 := by
  have h := (hi.reads id x hconn).payloads
  rw [sent, payloadsOf_append] at h
  exact ⟨payloadsOf id s.commands ++ x.parsed, by rw [← List.append_assoc]; exact h⟩

/-- Of a client that sends encoded payloads, and any bytes between them that start no frame, the core is given these
    payloads in order, and all of them once they arrived and no task has more to do. -/
theorem handled_in_order {l : List Piece} {later : Bytes} (hr : Reach s) (hconn : s.conns.lookup id = some x)
    (hsent : x.taken ++ (x.inbound ++ later) = l.flatMap Piece.bytes)
    (hnoise : ∀ y ∈ l, ∀ b ∈ y.noise, b ≠ 0x3C ∧ b ≠ 0x3E) (hlen : ∀ y ∈ l, y.payload.length ≤ 65535) :
    payloadsOf id s.handled <+: l.map Piece.payload ∧
      (x.inbound ++ later = [] → x.parsed = [] → payloadsOf id s.commands = [] →
        payloadsOf id s.handled = l.map Piece.payload) := by
  have hi : s.Inv := hr.inv
  have hall : frames.readAll (x.taken ++ (x.inbound ++ later)) = (l.map Piece.payload, []) :=
    hsent ▸ readAll_pieces hnoise hlen
  constructor
  · rw [Reader.readAll_append] at hall
    exact (hi.sent_prefix hconn).trans ⟨_, congrArg Prod.fst hall⟩
  · intro hnone hparsed hcommands
    have h := (hi.reads id x hconn).payloads
    rw [sent, payloadsOf_append, hcommands, hparsed, List.append_nil, List.append_nil] at h
    rw [hnone, List.append_nil] at hall
    rw [h, hall]

/-- A client connects to port 5000 and sends a byte that starts no frame, and a GET_BATTERY. -/
theorem reach_battery : ∃ s x, Reach s ∧ s.conns.lookup 1 = some x ∧ s.handled = [⟨1, 5000, [0x14]⟩] ∧ x.parsed = [] ∧
    x.taken = 7 :: encodeCommand [0x14] ∧ x.inbound = [] ∧ s.commands = [] := by
  have hread : frames.readAll (7 :: encodeCommand [0x14]) = ([[0x14]], []) :=
    readAll_pieces (l := [⟨[7], true, [0x14]⟩]) (by simp) (by simp)
  obtain ⟨hpayloads, -, -⟩ := FrameParser.new.feed_reads (7 :: encodeCommand [0x14])
  rw [FrameParser.new_pending, List.nil_append, hread] at hpayloads
  have hparsed :
      (Conn.read { Conn.new 5000 with phase := .running, reading := true, inbound := 7 :: encodeCommand [0x14] }
        5).parsed = [[0x14]] := hpayloads
  have hconnected : Reach _ := ((Reach.initial.step (.radio true)).step (.listen rfl)).step (.accept 5000 rfl)
  have harrived := (hconnected.step (@Step.register _ 1 _ rfl rfl)).step
    (@Step.arrive _ 1 _ rfl (7 :: encodeCommand [0x14]))
  have hread := harrived.step (@Step.read _ 1 _ 5 rfl rfl rfl (by decide) (by decide) (by decide))
  have hr := (hread.step (@Step.send _ 1 _ _ _ rfl hparsed)).step (.take rfl)
  exact ⟨_, _, hr, rfl, rfl, rfl, rfl, rfl, rfl⟩

theorem handled_in_order_battery : ∃ s, Reach s ∧ s.handled = [⟨1, 5000, [0x14]⟩] ∧
    payloadsOf 1 s.handled = [[0x14]] := by
  obtain ⟨s, x, hr, hconn, hhandled, hparsed, htaken, hinbound, hcommands⟩ := reach_battery
  have hsent : x.taken ++ (x.inbound ++ []) = [⟨[7], true, [0x14]⟩].flatMap Piece.bytes := by
    rw [htaken, hinbound]
    rfl
  exact ⟨s, hr, hhandled, (handled_in_order hr hconn hsent (by simp) (by simp)).2 (by rw [hinbound]; rfl) hparsed
    (by rw [hcommands]; rfl)⟩

/-- Each handler has got its id before the next one to be given. `direct_map` holds just the handlers that run or
    are about to close, once each, and what is sent to the core comes from handlers that were registered in it, with
    the port that they listened on. -/
theorem registered_handlers (hr : Reach s) : (∀ id x, s.conns.lookup id = some x → id < s.nextId) ∧ s.directMap.Nodup ∧
    (∀ id, id ∈ s.directMap ↔ ∃ x, s.conns.lookup id = some x ∧ (x.phase = .running ∨ x.phase = .closing)) ∧
    ∀ cmd ∈ s.sent, ∃ x, s.conns.lookup cmd.clientId = some x ∧ x.phase ≠ .spawned ∧ x.localPort = cmd.localPort := by
  have hi : s.Inv := hr.inv
  exact ⟨hi.known, hi.nodup, hi.registered, hi.origin⟩

theorem registered_handlers_battery : ∃ s x, Reach s ∧ s.handled = [⟨1, 5000, [0x14]⟩] ∧ s.conns.lookup 1 = some x ∧
    1 < s.nextId ∧ x.phase ≠ .spawned ∧ x.localPort = 5000 := by
  obtain ⟨s, _, hr, -, hhandled, -⟩ := reach_battery
  obtain ⟨hknown, -, -, horigin⟩ := registered_handlers hr
  obtain ⟨x, hx, hphase, hport⟩ := horigin ⟨1, 5000, [0x14]⟩ (by simp [sent, hhandled])
  exact ⟨s, x, hr, hhandled, hx, hknown 1 x hx, hphase, hport⟩

end
end Front
end CoreSplitter
