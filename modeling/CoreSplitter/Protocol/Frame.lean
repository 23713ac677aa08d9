import CoreSplitter.Lib.Bytes
import CoreSplitter.Lib.Reader

/-! The framing of payloads on a byte stream (`frame.rs`). -/

namespace CoreSplitter
open Bytes

def frameHeaderClient : UInt8 := 0x3C
def frameHeaderServer : UInt8 := 0x3E

/-- The length goes out as a `u16`. -/
def encode (header : UInt8) (payload : Bytes) : Bytes :=
  header :: (toLe 2 (UInt16.ofNat payload.length).toNat ++ payload)

def encodeResponse (payload : Bytes) : Bytes := encode frameHeaderServer payload

def encodeCommand (payload : Bytes) : Bytes := encode frameHeaderClient payload

def isFrameHeader (h : UInt8) : Bool := h == frameHeaderClient || h == frameHeaderServer

/-- A header was checked when it was taken, and a length is only taken after it. -/
structure FrameParser where
  headerByte : Option UInt8
  expectedLen : Option UInt16
  buffer : Bytes
  header_valid : ∀ h ∈ headerByte, isFrameHeader h = true
  len_after_header : expectedLen.isSome → headerByte.isSome
deriving DecidableEq

namespace FrameParser

theorem expectedLen_of_none {p : FrameParser} (hh : p.headerByte = none) : p.expectedLen = none := by
  have h := p.len_after_header
  rw [hh] at h
  simpa using h

def new : FrameParser := ⟨none, none, [], nofun, nofun⟩

/-- How a pass of the loop of `feed` ends: it breaks, or it goes on, after a payload or a skipped byte. -/
inductive Pass
  | break (p : FrameParser)
  | continue (payload : Option Bytes) (p : FrameParser)

/-- The pass once it has a length. -/
def takePayload (p : FrameParser) (needed : Nat) : Pass :=
  if p.buffer.length < needed then .break p
  else .continue (some (p.buffer.take needed)) ⟨none, none, p.buffer.drop needed, nofun, nofun⟩

/-- The pass once it has a header. -/
def takeLen (p : FrameParser) (h : p.headerByte.isSome) : Pass :=
  match p.expectedLen with
  | some len => p.takePayload len.toNat
  | none =>
    match p.buffer with
    | lo :: hi :: rest =>
      let len := UInt16.ofNat (leNat [lo, hi])
      { p with expectedLen := some len, buffer := rest, len_after_header := fun _ => h }.takePayload len.toNat
    | _ => .break p

/-- The body of the loop of `feed`. -/
def pass (p : FrameParser) : Pass :=
  if hnone : p.headerByte.isNone then
    match p.buffer with
    | [] => .break p
    | h :: rest =>
      if hh : isFrameHeader h then
        takeLen { p with
          headerByte := some h
          buffer := rest
          header_valid := fun _ hmem => Option.some.inj hmem ▸ hh
          len_after_header := fun _ => rfl } rfl
      -- An invalid header is skipped.
      else .continue none { p with buffer := rest }
  else p.takeLen (by simpa [Option.isSome_iff_ne_none] using hnone)

/-- What the buffer lacks for the loop to go on. -/
def Waiting (p : FrameParser) : Prop :=
  match p.headerByte, p.expectedLen with
  | none, _ => p.buffer = []
  | some _, none => p.buffer.length < 2
  | some _, some len => p.buffer.length < len.toNat

/-- The bytes that were taken or buffered and not given out yet. -/
def pending (p : FrameParser) : Bytes :=
  p.headerByte.toList ++ (p.expectedLen.elim [] (fun len => toLe 2 len.toNat) ++ p.buffer)

/-- It shrinks with each pass that does not break. -/
def measure (p : FrameParser) : Nat := 2 * p.buffer.length + p.headerByte.toList.length

end FrameParser

/-! ### The reading of a stream -/

/-- The next frame of a stream: a byte that is no header is skipped, and a frame is its header, its length and
    as many bytes of payload. -/
def nextFrame : Bytes → Option (Option Bytes × Bytes)
  | [] => none
  | h :: rest =>
    if isFrameHeader h then
      match rest with
      | lo :: hi :: body =>
        if leNat [lo, hi] ≤ body.length then some (some (body.take (leNat [lo, hi])), body.drop (leNat [lo, hi]))
          else none
      | _ => none
    else some (none, rest)

section
variable {h lo hi : UInt8} {s : Bytes}

theorem nextFrame_skip (hh : isFrameHeader h = false) : nextFrame (h :: s) = some (none, s) := by
  simp [nextFrame, hh]

theorem nextFrame_frame (hh : isFrameHeader h = true) (hlen : leNat [lo, hi] ≤ s.length) :
    nextFrame (h :: lo :: hi :: s) = some (some (s.take (leNat [lo, hi])), s.drop (leNat [lo, hi])) := by
  simp [nextFrame, hh, hlen]

theorem nextFrame_incomplete (hh : isFrameHeader h = true) (hlen : s.length < leNat [lo, hi]) :
    nextFrame (h :: lo :: hi :: s) = none := by
  have hlen : ¬leNat [lo, hi] ≤ s.length := Nat.not_le_of_lt hlen
  simp [nextFrame, hh, hlen]

theorem nextFrame_short (hh : isFrameHeader h = true) (hlen : s.length < 2) : nextFrame (h :: s) = none := by
  match s with
  | [] | [_] => simp [nextFrame, hh]
  | _ :: _ :: _ => exact absurd hlen (by simp)

end

theorem nextFrame_shrinks {s rest : Bytes} {x : Option Bytes} (h : nextFrame s = some (x, rest)) :
    rest.length < s.length := by
  unfold nextFrame at h
  split at h
  · cases h
  · split at h
    · split at h
      · split at h
        · cases h
          simp only [List.length_drop, List.length_cons]
          omega
        · cases h
      · cases h
    · cases h
      simp

theorem nextFrame_stable {s rest : Bytes} {x : Option Bytes} (t : Bytes) (h : nextFrame s = some (x, rest)) :
    nextFrame (s ++ t) = some (x, rest ++ t) := by
  unfold nextFrame at h
  split at h
  · cases h
  · rename_i b s
    split at h
    · rename_i hb
      split at h
      · rename_i lo hi body
        split at h
        · rename_i hlen
          cases h
          have hlen' : leNat [lo, hi] ≤ (body ++ t).length := by
            rw [List.length_append]
            omega
          simp only [nextFrame, List.cons_append, hb, hlen', if_true, List.take_append_of_le_length hlen,
            List.drop_append_of_le_length hlen]
        · cases h
      · cases h
    · rename_i hb
      cases h
      simp [nextFrame, hb]

/-- What a stream says, however it is cut. -/
def frames : Reader UInt8 Bytes where
  next := nextFrame
  shrinks := nextFrame_shrinks
  stable := nextFrame_stable

theorem readAll_frames {s rest : Bytes} {payload : Option Bytes} (h : nextFrame s = some (payload, rest)) :
    frames.readAll s = (payload.toList ++ (frames.readAll rest).1, (frames.readAll rest).2) :=
  Reader.readAll_of_some (R := frames) (s := s) h

/-! ### The passes -/

namespace FrameParser
variable {p p' : FrameParser}

theorem toLe_leNat {lo hi : UInt8} : toLe 2 (leNat [lo, hi]) = [lo, hi] := by
  have hlo := lo.toNat_lt
  have hhi := hi.toNat_lt
  simp only [toLe, leNat, Nat.mul_zero, Nat.add_zero, List.cons.injEq, and_true]
  refine ⟨UInt8.toNat_inj.mp ?_, UInt8.toNat_inj.mp ?_⟩ <;> simp only [UInt8.toNat_ofNat'] <;> omega

theorem leNat_lt {lo hi : UInt8} : leNat [lo, hi] < 65536 := by
  have hlo := lo.toNat_lt
  have hhi := hi.toNat_lt
  simp only [leNat]
  omega

/-- What a pass does to the stream that the parser stands in. -/
inductive Reads (p : FrameParser) : Pass → Prop
  | break {p' : FrameParser} (hpending : p'.pending = p.pending) (hwaiting : p'.Waiting)
      (hnext : nextFrame p.pending = none) : Reads p (.break p')
  | continue {payload : Option Bytes} {p' : FrameParser} (hnext : nextFrame p.pending = some (payload, p'.pending))
      (hlt : p'.measure < p.measure) : Reads p (.continue payload p')

theorem Reads.of_taken {r : Pass} (h : p'.Reads r) (hpending : p'.pending = p.pending) (hle : p'.measure ≤ p.measure) :
    p.Reads r := by
  cases h with
  | «break» hpending' hwaiting hnext => exact .break (hpending'.trans hpending) hwaiting (hpending ▸ hnext)
  | «continue» hnext hlt => exact .continue (hpending ▸ hnext) (Nat.lt_of_lt_of_le hlt hle)

section
variable {h : UInt8} {len : UInt16}

theorem pending_of_none (hh : p.headerByte = none) : p.pending = p.buffer := by
  simp [pending, hh, expectedLen_of_none hh]

theorem pending_of_header (hh : p.headerByte = some h) (hlen : p.expectedLen = none) : p.pending = h :: p.buffer := by
  simp [pending, hh, hlen]

theorem pending_of_len (hh : p.headerByte = some h) (hlen : p.expectedLen = some len) :
    p.pending = h :: (toLe 2 len.toNat ++ p.buffer) := by
  simp [pending, hh, hlen]

theorem exists_header (h : p.headerByte.isSome) : ∃ b, p.headerByte = some b ∧ isFrameHeader b = true := by
  obtain ⟨b, hb⟩ := Option.isSome_iff_exists.mp h
  exact ⟨b, hb, p.header_valid b hb⟩

end

theorem takePayload_reads {len : UInt16} (hlen : p.expectedLen = some len) : p.Reads (p.takePayload len.toNat) := by
  have hsome : p.headerByte.isSome := p.len_after_header (by rw [hlen]; rfl)
  obtain ⟨h, hh, hheader⟩ := exists_header hsome
  obtain ⟨lo, hi, hle⟩ : ∃ lo hi, toLe 2 len.toNat = [lo, hi] := ⟨_, _, rfl⟩
  have hnat : leNat [lo, hi] = len.toNat := by
    rw [← hle]
    exact leNat_toLe len.toNat_lt
  have hpending : p.pending = h :: lo :: hi :: p.buffer := by rw [pending_of_len hh hlen, hle]; rfl
  unfold takePayload
  split
  · rename_i hbuf
    exact .break rfl (by simpa [Waiting, hh, hlen] using hbuf) (hpending ▸ nextFrame_incomplete hheader (hnat ▸ hbuf))
  · rename_i hbuf
    refine .continue ?_ ?_
    · rw [hpending, nextFrame_frame hheader (by omega), hnat]
      rfl
    · simp only [measure, hh, List.length_drop, Option.toList_none, Option.toList_some, List.length_nil,
        List.length_singleton]
      omega

theorem takeLen_reads (h : p.headerByte.isSome) : p.Reads (p.takeLen h) := by
  obtain ⟨b, hb, hheader⟩ := exists_header h
  unfold takeLen
  split
  · rename_i len hlen
    exact takePayload_reads hlen
  · rename_i hlen
    split
    · rename_i lo hi rest hbuf
      have hround : toLe 2 (UInt16.ofNat (leNat [lo, hi])).toNat = [lo, hi] := by
        rw [UInt16.toNat_ofNat_of_lt' leNat_lt, toLe_leNat]
      refine (takePayload_reads rfl).of_taken ?_ ?_
      · simp only [pending, hb, hlen, hbuf, hround, Option.elim_some, Option.elim_none, List.cons_append,
          List.nil_append]
      · simp only [measure, hbuf, List.length_cons]
        omega
    · rename_i hbuf
      have hshort : p.buffer.length < 2 := by
        match hb : p.buffer with
        | [] | [_] => simp
        | lo :: hi :: rest => cases hbuf lo hi rest hb
      exact .break rfl (by simpa [Waiting, hb, hlen] using hshort)
        (by rw [pending_of_header hb hlen, nextFrame_short hheader hshort])

/-- The one thing to know about a pass. -/
theorem pass_reads : p.Reads p.pass := by
  unfold pass
  split
  · rename_i hisNone
    have hnone : p.headerByte = none := Option.isNone_iff_eq_none.mp hisNone
    have hpending : p.pending = p.buffer := pending_of_none hnone
    split
    · rename_i hbuf
      exact .break rfl (by simp [Waiting, hnone, hbuf]) (by simp [hpending, hbuf, nextFrame])
    · rename_i b rest hbuf
      split
      · rename_i hb
        refine (takeLen_reads rfl).of_taken ?_ ?_
        · rw [hpending, hbuf]
          exact pending_of_header (h := b) rfl (expectedLen_of_none (p := p) hnone)
        · simp only [measure, hbuf, hnone, Option.toList_some, Option.toList_none, List.length_cons, List.length_nil]
          omega
      · rename_i hb
        refine .continue ?_ ?_
        · rw [hpending, hbuf, nextFrame_skip (by simpa using hb)]
          simp [pending, hnone, expectedLen_of_none hnone]
        · simp [measure, hbuf]
  · exact takeLen_reads _

theorem new_waiting : new.Waiting := rfl

@[simp] theorem new_pending : new.pending = [] := rfl

theorem eq_of_fields (hheader : p.headerByte = p'.headerByte) (hlen : p.expectedLen = p'.expectedLen)
    (hbuf : p.buffer = p'.buffer) : p = p' := by
  cases p
  cases p'
  simp_all

theorem Waiting.eq_of_none (h : p.Waiting) (h' : p'.Waiting) (hh : p.headerByte = none)
    (hpending : p.pending = p'.pending) : p = p' := by
  have hbuf : p.buffer = [] := by simpa [Waiting, hh] using h
  rw [pending_of_none hh, hbuf] at hpending
  have hh' : p'.headerByte = none := by
    cases hb : p'.headerByte with
    | none => rfl
    | some b => simp [pending, hb] at hpending
  have hbuf' : p'.buffer = [] := by simpa [Waiting, hh'] using h'
  exact eq_of_fields (hh.trans hh'.symm) ((expectedLen_of_none hh).trans (expectedLen_of_none hh').symm)
    (hbuf.trans hbuf'.symm)

/-- A parser that waits is determined by the bytes that it holds. -/
theorem Waiting.eq_of_pending (h : p.Waiting) (h' : p'.Waiting) (hpending : p.pending = p'.pending) : p = p' := by
  cases hh : p.headerByte with
  | none => exact h.eq_of_none h' hh hpending
  | some b =>
    cases hh' : p'.headerByte with
    | none => exact (h'.eq_of_none h hh' hpending.symm).symm
    | some b' =>
      cases hlen : p.expectedLen <;> cases hlen' : p'.expectedLen
      case none.none =>
        rw [pending_of_header hh hlen, pending_of_header hh' hlen'] at hpending
        obtain ⟨rfl, hbuf⟩ := List.cons.inj hpending
        exact eq_of_fields (hh.trans hh'.symm) (hlen.trans hlen'.symm) hbuf
      case none.some len =>
        have hshort : p.buffer.length < 2 := by simpa [Waiting, hh, hlen] using h
        rw [pending_of_header hh hlen, pending_of_len hh' hlen'] at hpending
        have hlong := congrArg List.length (List.cons.inj hpending).2
        simp only [List.length_append, toLe_length] at hlong
        omega
      case some.none len =>
        have hshort : p'.buffer.length < 2 := by simpa [Waiting, hh', hlen'] using h'
        rw [pending_of_len hh hlen, pending_of_header hh' hlen'] at hpending
        have hlong := congrArg List.length (List.cons.inj hpending).2
        simp only [List.length_append, toLe_length] at hlong
        omega
      case some.some len len' =>
        rw [pending_of_len hh hlen, pending_of_len hh' hlen'] at hpending
        obtain ⟨rfl, htail⟩ := List.cons.inj hpending
        obtain ⟨hle, hbuf⟩ := List.append_inj htail (by simp)
        have hnat : len.toNat = len'.toNat := by
          rw [← leNat_toLe (k := 2) len.toNat_lt, hle, leNat_toLe len'.toNat_lt]
        exact eq_of_fields (hh.trans hh'.symm) (by rw [hlen, hlen', UInt16.toNat_inj.mp hnat]) hbuf

/-! ### The loop -/

end FrameParser

/-- The loop of `feed`. -/
def FrameParser.loop (p : FrameParser) : List Bytes × FrameParser :=
  match h : p.pass with
  | .break p' => ([], p')
  | .continue payload p' =>
    have : p'.measure < p.measure := by
      have hr := pass_reads (p := p)
      rw [h] at hr
      cases hr with
      | «continue» _ hlt => exact hlt
    (payload.toList ++ (loop p').1, (loop p').2)
termination_by p.measure

namespace FrameParser

def feed (p : FrameParser) (data : Bytes) : List Bytes × FrameParser := { p with buffer := p.buffer ++ data }.loop

/-- The chunks of a stream, in order. -/
def feedAll (p : FrameParser) : List Bytes → List Bytes × FrameParser
  | [] => ([], p)
  | data :: rest => ((p.feed data).1 ++ (feedAll (p.feed data).2 rest).1, (feedAll (p.feed data).2 rest).2)

/-- At most `n` passes of the loop, if it breaks within them. -/
def passes : Nat → FrameParser → Option (List Bytes × FrameParser)
  | 0, _ => none
  | n + 1, p =>
    match p.pass with
    | .break p' => some ([], p')
    | .continue payload p' => (passes n p').map fun r => (payload.toList ++ r.1, r.2)

section
variable {p p' : FrameParser} {payload : Option Bytes} {data : Bytes} {chunks : List Bytes}

theorem loop_of_break (h : p.pass = .break p') : p.loop = ([], p') := by
  rw [loop]
  split
  · rename_i h'
    cases h.symm.trans h'
    rfl
  · rename_i h'
    cases h.symm.trans h'

theorem loop_of_continue (h : p.pass = .continue payload p') :
    p.loop = (payload.toList ++ p'.loop.1, p'.loop.2) := by
  rw [loop]
  split
  · rename_i h'
    cases h.symm.trans h'
  · rename_i h'
    cases h.symm.trans h'
    rfl

/-- The loop breaks on every input. -/
theorem exists_passes : ∃ n, passes n p = some p.loop := by
  induction p using loop.induct with
  | case1 p p' h => exact ⟨1, by simp [passes, h, loop_of_break h]⟩
  | case2 p payload p' h _ ih =>
    obtain ⟨n, hn⟩ := ih
    exact ⟨n + 1, by simp [passes, h, hn, loop_of_continue h]⟩

theorem loop_reads : p.loop.1 = (frames.readAll p.pending).1 ∧ p.loop.2.pending = (frames.readAll p.pending).2 ∧
    p.loop.2.Waiting := by
  induction p using loop.induct with
  | case1 p p' h =>
    have hr := pass_reads (p := p)
    rw [h] at hr
    cases hr with
    | «break» hpending hwaiting hnext =>
      rw [loop_of_break h, Reader.readAll_of_none hnext]
      exact ⟨rfl, hpending, hwaiting⟩
  | case2 p payload p' h _ ih =>
    have hr := pass_reads (p := p)
    rw [h] at hr
    cases hr with
    | «continue» hnext _ =>
      obtain ⟨hpayloads, hpending, hwaiting⟩ := ih
      rw [loop_of_continue h, readAll_frames hnext]
      exact ⟨by rw [hpayloads], hpending, hwaiting⟩

theorem pending_push : pending { p with buffer := p.buffer ++ data } = p.pending ++ data := by
  simp [pending]

theorem feed_reads (p : FrameParser) (data : Bytes) : (p.feed data).1 = (frames.readAll (p.pending ++ data)).1 ∧
    (p.feed data).2.pending = (frames.readAll (p.pending ++ data)).2 ∧ (p.feed data).2.Waiting := by
  have h := loop_reads (p := { p with buffer := p.buffer ++ data })
  rw [pending_push] at h
  exact h

/-- What is fed after a part of a stream is read as its continuation. -/
theorem feed_taken {taken : Bytes} (hpending : p.pending = (frames.readAll taken).2) (data : Bytes) :
    frames.readAll (taken ++ data) = ((frames.readAll taken).1 ++ (p.feed data).1, (p.feed data).2.pending) := by
  obtain ⟨hgiven, hleft, -⟩ := feed_reads p data
  rw [Reader.readAll_append, ← hpending, hgiven, hleft]

theorem feedAll_reads (hwaiting : p.Waiting) (chunks : List Bytes) :
    (p.feedAll chunks).1 = (frames.readChunks p.pending chunks).1 ∧
    (p.feedAll chunks).2.pending = (frames.readChunks p.pending chunks).2 ∧ (p.feedAll chunks).2.Waiting := by
  induction chunks generalizing p with
  | nil => exact ⟨rfl, rfl, hwaiting⟩
  | cons data rest ih =>
    obtain ⟨hpayloads, hpending, hwaiting⟩ := feed_reads p data
    obtain ⟨hpayloads', hpending', hwaiting'⟩ := ih hwaiting
    rw [feedAll, Reader.readChunks, hpayloads', hpending', hpending, hpayloads]
    exact ⟨rfl, rfl, hwaiting'⟩

theorem new_feedAll (chunks : List Bytes) : (new.feedAll chunks).1 = (frames.readAll chunks.flatten).1 ∧
    (new.feedAll chunks).2.pending = (frames.readAll chunks.flatten).2 ∧ (new.feedAll chunks).2.Waiting := by
  have h := feedAll_reads new_waiting chunks
  rw [Reader.readChunks_eq (by rfl), new_pending, List.nil_append] at h
  exact h

/-- Neither the frames nor the parser depend on how the stream was cut, and both are what the stream says. -/
theorem feed_chunks (chunks : List Bytes) : new.feedAll chunks = new.feed chunks.flatten ∧
    (new.feed chunks.flatten).1 = (frames.readAll chunks.flatten).1 ∧
    (new.feed chunks.flatten).2.pending = (frames.readAll chunks.flatten).2 ∧
    ∀ p : FrameParser, ∀ data, ∃ n, passes n { p with buffer := p.buffer ++ data } = some (p.feed data) := by
  obtain ⟨hpayloads, hpending, hwaiting⟩ := new_feedAll chunks
  obtain ⟨hpayloads', hpending', hwaiting'⟩ := feed_reads new chunks.flatten
  rw [new_pending, List.nil_append] at hpayloads' hpending'
  refine ⟨Prod.ext (hpayloads.trans hpayloads'.symm) ?_, hpayloads', hpending', fun p data => exists_passes⟩
  exact hwaiting.eq_of_pending hwaiting' (hpending.trans hpending'.symm)

end

end FrameParser

/-! ### What was encoded -/

section
variable {h : UInt8} {payload s noise : Bytes}

/-- The frame that is read where a payload was encoded: all of it when its length fits. -/
theorem nextFrame_encode (hh : isFrameHeader h = true) : nextFrame (encode h payload ++ s) =
    some (some (payload.take (payload.length % 65536)), payload.drop (payload.length % 65536) ++ s) := by
  obtain ⟨lo, hi, hle⟩ : ∃ lo hi, toLe 2 (UInt16.ofNat payload.length).toNat = [lo, hi] := ⟨_, _, rfl⟩
  have hnat : leNat [lo, hi] = payload.length % 65536 := by
    rw [← hle, leNat_toLe (UInt16.toNat_lt _), UInt16.toNat_ofNat']
  have hlen : payload.length % 65536 ≤ payload.length := Nat.mod_le _ _
  have hfits : leNat [lo, hi] ≤ (payload ++ s).length := by
    rw [hnat, List.length_append]
    omega
  simp only [encode, hle, List.cons_append, List.nil_append]
  rw [nextFrame_frame hh hfits, hnat, List.take_append_of_le_length hlen, List.drop_append_of_le_length hlen]

theorem nextFrame_encode_fits (hh : isFrameHeader h = true) (hlen : payload.length < 65536) :
    nextFrame (encode h payload ++ s) = some (some payload, s) := by
  rw [nextFrame_encode hh, Nat.mod_eq_of_lt hlen, List.take_length, List.drop_length, List.nil_append]

theorem readAll_noise (hnoise : ∀ b ∈ noise, isFrameHeader b = false) :
    frames.readAll (noise ++ s) = frames.readAll s := by
  induction noise with
  | nil => rfl
  | cons b noise ih =>
    obtain ⟨hb, hnoise⟩ := List.forall_mem_cons.mp hnoise
    rw [List.cons_append, readAll_frames (nextFrame_skip hb), ih hnoise]
    rfl

theorem readAll_encode_fits (hh : isFrameHeader h = true) (hlen : payload.length < 65536) :
    frames.readAll (encode h payload ++ s) = (payload :: (frames.readAll s).1, (frames.readAll s).2) := by
  rw [readAll_frames (nextFrame_encode_fits hh hlen)]
  rfl

/-- The length of a payload that is read fits its two bytes. -/
theorem length_readAll_le : ∀ payload ∈ (frames.readAll s).1, payload.length ≤ 65535 := by
  refine Reader.forall_mem_readAll fun {s rest payload} hnext => ?_
  have hnext : nextFrame s = some (some payload, rest) := hnext
  unfold nextFrame at hnext
  split at hnext
  · cases hnext
  · split at hnext
    · split at hnext
      · split at hnext
        · cases hnext
          exact (List.length_take_le _ _).trans (Nat.le_of_lt_succ FrameParser.leNat_lt)
        · cases hnext
      · cases hnext
    · cases hnext

/-- A payload goes through whole, and nothing else does, exactly when its length fits. -/
theorem feed_encodeResponse_iff :
    FrameParser.new.feed (encodeResponse payload) = ([payload], .new) ↔ payload.length < 65536 := by
  have hheader : isFrameHeader frameHeaderServer = true := by decide
  have hnext : nextFrame (encodeResponse payload ++ []) = some (some (payload.take (payload.length % 65536)),
      payload.drop (payload.length % 65536) ++ []) := nextFrame_encode hheader
  rw [List.append_nil, List.append_nil] at hnext
  obtain ⟨hpayloads, hpending, hwaiting⟩ := FrameParser.feed_reads .new (encodeResponse payload)
  rw [FrameParser.new_pending, List.nil_append, readAll_frames hnext] at hpayloads hpending
  constructor
  · intro h
    rw [h] at hpayloads
    have hfirst : payload.take (payload.length % 65536) = payload := (List.cons.inj hpayloads).1.symm
    have hlen := congrArg List.length hfirst
    rw [List.length_take] at hlen
    omega
  · intro hlen
    rw [Nat.mod_eq_of_lt hlen, List.take_length, List.drop_length, Reader.readAll_of_none rfl] at hpayloads hpending
    exact Prod.ext hpayloads (hwaiting.eq_of_pending FrameParser.new_waiting hpending)

end

/-- A payload on a stream, after bytes that are no frame. -/
structure Piece where
  noise : Bytes
  /-- It was encoded with `encodeCommand`, and not with `encodeResponse`. -/
  command : Bool
  payload : Bytes

def Piece.bytes (x : Piece) : Bytes :=
  x.noise ++ if x.command then encodeCommand x.payload else encodeResponse x.payload

theorem readAll_pieces {l : List Piece} (hnoise : ∀ x ∈ l, ∀ b ∈ x.noise, b ≠ 0x3C ∧ b ≠ 0x3E)
    (hlen : ∀ x ∈ l, x.payload.length ≤ 65535) :
    frames.readAll (l.flatMap Piece.bytes) = (l.map Piece.payload, []) := by
  induction l with
  | nil => exact Reader.readAll_of_none rfl
  | cons x l ih =>
    obtain ⟨hnoise₁, hnoise⟩ := List.forall_mem_cons.mp hnoise
    obtain ⟨hlen₁, hlen⟩ := List.forall_mem_cons.mp hlen
    have hskip : ∀ b ∈ x.noise, isFrameHeader b = false := fun b hb => by
      simpa [isFrameHeader, frameHeaderClient, frameHeaderServer] using hnoise₁ b hb
    obtain ⟨header, hheader, hbytes⟩ : ∃ header, isFrameHeader header = true ∧
        x.bytes = x.noise ++ encode header x.payload := by
      cases hcommand : x.command with
      | true => exact ⟨frameHeaderClient, rfl, by simp [Piece.bytes, hcommand, encodeCommand]⟩
      | false => exact ⟨frameHeaderServer, rfl, by simp [Piece.bytes, hcommand, encodeResponse]⟩
    rw [List.flatMap_cons, hbytes, List.append_assoc, readAll_noise hskip,
      readAll_encode_fits hheader (Nat.lt_succ_of_le hlen₁), ih hnoise hlen]
    rfl

/-- Decoding undoes encoding, however the stream was cut, and what lies between the frames is skipped. -/
theorem feedAll_encoded (l : List Piece) (chunks : List Bytes) (hnoise : ∀ x ∈ l, ∀ b ∈ x.noise, b ≠ 0x3C ∧ b ≠ 0x3E)
    (hlen : ∀ x ∈ l, x.payload.length ≤ 65535) (hchunks : chunks.flatten = l.flatMap Piece.bytes) :
    FrameParser.new.feedAll chunks = (l.map Piece.payload, .new) := by
  obtain ⟨hpayloads, hpending, hwaiting⟩ := FrameParser.new_feedAll chunks
  rw [hchunks, readAll_pieces hnoise hlen] at hpayloads hpending
  exact Prod.ext hpayloads (hwaiting.eq_of_pending FrameParser.new_waiting hpending)

/-- A header inside a payload and an empty payload, cut within the second length. -/
theorem feedAll_encoded_cut :
    FrameParser.new.feedAll [[7, 0x3C, 2], [0, 0x3E, 0x3C, 0x3E, 0], [], [0]] = ([[0x3E, 0x3C], []], .new) :=
  feedAll_encoded [⟨[7], true, [0x3E, 0x3C]⟩, ⟨[], false, []⟩] _ (by simp) (by simp) (by decide)

end CoreSplitter
