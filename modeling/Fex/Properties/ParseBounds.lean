import Fex.Scripted

/-!
# Parsing stays inside the request body

## Main result

`parsesInside_iff`: whatever the daemon answers and however large the reply area is,
`dispatch` inspects bytes of its body only, and each frame of a compound bytes of its
own payload only, just when no REMOVEXATTR announces more extension bytes than it has.

## Proof strategy

For sufficiency every parser is bounded by `readLimit`, which is the end of the body
unless the extensions overrun it; a compound adds the headers the loop reads and the
rounds of its frames, whose payloads lie inside the body. For necessity the overrun
makes `avail` wrap, so the first step of `strnlen` already reads behind the body. A
frame in a compound is reached by the scripted daemon whose replies are all empty.
-/
namespace Fex

open Foundation Program

/-- Every byte of the request the operation inspects belongs to `area`. -/
def Op.Inspects (area : Span) : Op → Prop
  | .load .scratch span off len =>
    ∀ a, span.base + off ≤ a → a < span.base + off + len →
      area.base ≤ a ∧ a < area.base + area.len
  | _ => True

/-- Under every daemon and reply area, the bytes inspected of a request lie inside its
body, and those inspected for a frame of a compound inside that frame's payload; what a
compound inspects besides its frames are bytes of its body. -/
structure ParsesInside (m : Memory) (h : FuseInHeader) (body : Span) : Prop where
  request : ∀ {σ : Type} (fs : Filesystem σ) (opts : SessionOptions) (r : Replier) (w : World σ),
    w.mem .scratch = m →
      ∀ e ∈ trace (World.step fs) (dispatch opts h body r) w, e.1.Inspects body
  frames : h.opcode = Opcode.compound.code →
    ∀ {σ : Type} (fs : Filesystem σ) (opts : SessionOptions) (r : Replier) (w : World σ),
      w.mem .scratch = m → Comprises fs opts r h body w ∧
        ∀ t ∈ (compoundProgress fs (dispatch opts) r body w).rounds,
          ∀ e ∈ t.log fs (dispatch opts) r, e.1.Inspects t.frame.payload

/-- A REMOVEXATTR whose announced extensions are longer than its body. -/
def ExtensionOverrun (h : FuseInHeader) (body : Span) : Prop :=
  h.opcode = Opcode.removexattr.code ∧ body.len < extBytes h

/-- Neither the request nor a frame of it is a REMOVEXATTR that overruns its body. -/
def ExtensionsFit (m : Memory) (h : FuseInHeader) (body : Span) : Prop :=
  ¬ExtensionOverrun h body ∧ (h.opcode = Opcode.compound.code →
    ∀ f ∈ (compoundFrames m body).1, ¬ExtensionOverrun f.header f.payload)

/-! ### Operations that stay inside -/

theorem Op.Inspects.mono {s t : Span} {op : Op} (inside : op.Inspects s) (within : s.Within t) :
    op.Inspects t := by
  unfold Op.Inspects at *
  split
  next span off len =>
    intro a lower upper
    obtain ⟨low, high⟩ := inside a lower upper
    obtain ⟨left, right⟩ := within
    omega
  · trivial

theorem ReadsBody.inspects {body : Span} {op : Op} (reads : ReadsBody body body.len op) :
    op.Inspects body := by
  obtain ⟨off, len, rfl, fits⟩ := reads
  intro a lower upper
  omega

/-- The reply area is not part of the request. -/
theorem Op.SlotWithin.inspects {area body : Span} {op : Op} (slot : op.SlotWithin area) :
    op.Inspects body := by
  cases op with
  | load blk span off len =>
    obtain ⟨rfl, -⟩ := slot
    trivial
  | store | call | setInitDone => trivial

theorem Op.Serves.inspects {area body : Span} {op : Op} (serves : op.Serves area) :
    op.Inspects body := by
  cases op with
  | load blk span off len =>
    obtain ⟨rfl, -⟩ := serves
    trivial
  | store | call | setInitDone => trivial

/-! ### Requests whose extensions fit -/

section Sufficiency

variable {σ : Type} (fs : Filesystem σ) (opts : SessionOptions)

theorem dispatchLeaf_inspects (h : FuseInHeader) (body : Span) (r : Replier) (w : World σ)
    (fit : ¬ExtensionOverrun h body) :
    ∀ e ∈ trace (World.step fs) (dispatchLeaf opts h body r) w, e.1.Inspects body := by
  have limit : readLimit h body = body.len := if_neg fit
  intro e logged
  rcases dispatchLeaf_leaf fs w opts h body r e logged with reads | serves
  · rw [limit] at reads
    exact reads.inspects
  · exact serves.inspects

/-- Threading a nodeid changes neither the opcode nor the extension length. -/
theorem Round.overrun_header (t : Round σ) :
    ExtensionOverrun t.header t.frame.payload ↔
      ExtensionOverrun t.frame.header t.frame.payload := by
  simp only [ExtensionOverrun, Round.header, threadNodeid_opcode, extBytes_threadNodeid]

theorem Round.log_inspects (r : Replier) (t : Round σ)
    (fit : ¬ExtensionOverrun t.frame.header t.frame.payload) :
    ∀ e ∈ t.log fs (dispatchLeaf opts) r, e.1.Inspects t.frame.payload := by
  rw [Round.log, Round.handler_leaf]
  apply dispatchLeaf_inspects
  rw [t.overrun_header]
  exact fit

theorem handleCompound_inspects (h : FuseInHeader) (body : Span) (r : Replier) (w : World σ)
    (fit : ∀ f ∈ (compoundFrames (w.mem .scratch) body).1,
      ¬ExtensionOverrun f.header f.payload) :
    ∀ e ∈ trace (World.step fs) (handleCompound (dispatchLeaf opts) h body r) w,
      e.1.Inspects body := by
  by_cases small : body.len < FuseCompoundIn.codec.size ∨ r.cap < FuseCompoundOut.codec.size
  · rw [handleCompound_small h small]
    intro e logged
    cases logged
  · have tame := dispatchLeaf_tame_any fs opts
    have spec := handleCompound_spec tame h body r w small
    intro e logged
    rcases spec.events e logged with ⟨t, round, sub⟩ | reads | slot
    · have frame := compoundProgress_frame round
      have inside := t.log_inspects fs opts r (fit t.frame frame) e sub
      exact inside.mono (scanFrames_within _ _ _ _ _ frame)
    · exact reads.inspects
    · exact slot.inspects

end Sufficiency

/-! ### Requests whose extensions overrun -/

section Necessity

variable {σ : Type} (fs : Filesystem σ) (opts : SessionOptions)

theorem strnlen_reads_first (body : Span) (off maxlen : Nat) (w : World σ) :
    ∃ e ∈ trace (World.step fs) (strnlen body off (maxlen + 1)) w,
      e.1 = .load .scratch body off 1 :=
  ⟨_, List.mem_cons_self, rfl⟩

/-- The wrapped `avail` is positive, so the byte behind the extensions is read. -/
theorem overrun_reads (h : FuseInHeader) (body : Span) (r : Replier) (w : World σ)
    (overrun : ExtensionOverrun h body) :
    ∃ e ∈ trace (World.step fs) (dispatchLeaf opts h body r) w,
      e.1 = .load .scratch body (extBytes h) 1 := by
  obtain ⟨opcode, short⟩ := overrun
  have small : extBytes h < 2 ^ 64 := by
    have extlen := h.totalExtlen.toNat_lt
    simp only [extBytes]
    omega
  obtain ⟨avail, wraps⟩ : ∃ avail, sizeSub body.len (extBytes h) = avail + 1 := by
    rw [sizeSub_of_lt short]
    exact Nat.exists_eq_succ_of_ne_zero (by omega)
  obtain ⟨e, first, load⟩ := strnlen_reads_first fs body (extBytes h) avail w
  refine ⟨e, ?_, load⟩
  -- The read is part of decoding, whatever comes of it.
  rw [dispatchLeaf_eq, trace_bind, List.mem_append]
  left
  rw [decode, (Opcode.ofCode_eq_some_iff _ _).mpr opcode]
  dsimp only
  rw [trace_map, parseRemovexattr, wraps, cString, trace_bind, List.mem_append]
  exact .inl first

theorem not_inspects_overrun {h : FuseInHeader} {body : Span}
    (overrun : ExtensionOverrun h body) :
    ¬(Op.load .scratch body (extBytes h) 1).Inspects body := by
  intro inside
  have short := overrun.2
  have last := (inside (body.base + extBytes h) (Nat.le_refl _) (Nat.lt_succ_self _)).2
  omega

theorem overrun_not_parsesInside (m : Memory) {h : FuseInHeader} {body : Span}
    (overrun : ExtensionOverrun h body) : ¬ParsesInside m h body := by
  intro parses
  -- A REMOVEXATTR is not a compound, so the leaf switch is what runs.
  have leaf : h.opcode ≠ Opcode.compound.code := by
    rw [overrun.1]
    decide
  let w : World Unit := { mem := fun _ => m, initDone := false, fs := () }
  have reads := parses.request (Filesystem.failing Errc.ioError) {} {} w rfl
  rw [dispatch_leaf _ _ _ _ leaf] at reads
  obtain ⟨e, logged, load⟩ :=
    overrun_reads (Filesystem.failing Errc.ioError) {} h body {} w overrun
  have inside := reads e logged
  rw [load] at inside
  exact not_inspects_overrun overrun inside

/-- With room for all out-headers, some script lets every frame run. -/
theorem scripted_finishes (r : Replier) (m : Memory) (frames : List Frame) (outP : Nat)
    (room : outP + FuseOutHeader.codec.size * frames.length ≤ r.cap) :
    ∃ script, ∀ c : Cursor (List Nat), c.outP = outP → c.world.fs = script →
      c.world.mem .scratch = m →
        (runFrames scripted (dispatchLeaf opts) r frames c).finished = true := by
  have tame := dispatchLeaf_tame_any scripted opts
  induction frames generalizing outP with
  | nil => exact ⟨[], fun _ _ _ _ => rfl⟩
  | cons f rest ih =>
    rw [List.length_cons, Nat.mul_succ] at room
    obtain ⟨script, finishes⟩ := ih (outP + FuseOutHeader.codec.size) (by omega)
    -- A reply without payload is always allowed, and takes the least room.
    refine ⟨(f.decoded m).schedule 0 script, ?_⟩
    rintro c rfl next rfl
    have empty := ReplyShape.allows_zero (r.cap - c.outP - FuseOutHeader.codec.size)
      (f.decoded (c.world.mem .scratch)).shape
    obtain ⟨moved, left⟩ := scripted_round opts r ⟨f, c⟩ next empty
    rw [runFrames, if_neg (by omega)]
    exact finishes _ moved left (Round.next_scratch r tame ⟨f, c⟩)

/-- Every frame of a compound body is run by some daemon with enough room. -/
theorem exists_round (m : Memory) (body : Span) (f : Frame)
    (among : f ∈ (compoundFrames m body).1) :
    ∃ (r : Replier) (w : World (List Nat)), w.mem .scratch = m ∧
      ∃ t ∈ (compoundProgress scripted (dispatch opts) r body w).rounds, t.frame = f := by
  let r : Replier := { cap := FuseCompoundOut.codec.size +
    FuseOutHeader.codec.size * (compoundFrames m body).1.length }
  obtain ⟨script, finishes⟩ := scripted_finishes opts r m (compoundFrames m body).1
    FuseCompoundOut.codec.size (Nat.le_refl _)
  let w : World (List Nat) := { mem := fun _ => m, initDone := false, fs := script }
  refine ⟨r, w, rfl, ?_⟩
  rw [compoundProgress_dispatch]
  have finished : (compoundProgress scripted (dispatchLeaf opts) r body w).finished = true :=
    finishes (compoundStart r w) rfl rfl (World.write_mem_scratch _ _ _)
  have all : (compoundProgress scripted (dispatchLeaf opts) r body w).rounds.map Round.frame =
      (compoundFrames m body).1 := (runFrames_frames _ _).2 finished
  rw [← all] at among
  exact List.mem_map.mp among

end Necessity

/-- Parsing stays inside the body just when no extension length overruns it. -/
theorem parsesInside_iff (m : Memory) (h : FuseInHeader) (body : Span) :
    ParsesInside m h body ↔ ExtensionsFit m h body := by
  constructor
  · intro parses
    refine ⟨?_, ?_⟩
    · intro overrun
      exact overrun_not_parsesInside m overrun parses
    · -- Some daemon gets as far as this frame.
      intro compound f among overrun
      obtain ⟨r, w, scratch, t, round, rfl⟩ := exists_round {} m body f among
      have header : ExtensionOverrun t.header t.frame.payload := t.overrun_header.mpr overrun
      obtain ⟨e, logged, load⟩ := overrun_reads scripted {} t.header t.frame.payload
        (t.replier r) t.start.world header
      rw [← Round.handler_leaf] at logged
      have inside := (parses.frames compound scripted {} r w scratch).2 t round e
        (by rw [Round.log_dispatch]; exact logged)
      rw [load] at inside
      exact not_inspects_overrun header inside
  · rintro ⟨fit, frames⟩
    constructor
    · intro σ fs opts r w scratch
      by_cases compound : h.opcode = Opcode.compound.code
      · rw [dispatch_compound opts h body r compound]
        apply handleCompound_inspects
        rw [scratch]
        exact frames compound
      · rw [dispatch_leaf opts h body r compound]
        exact dispatchLeaf_inspects fs opts h body r w fit
    · intro compound σ fs opts r w scratch
      refine ⟨handleCompound_comprises fs opts r h body w, fun t round => ?_⟩
      rw [Round.log_dispatch]
      have frame := compoundProgress_frame round
      rw [scratch] at frame
      exact t.log_inspects fs opts r (frames compound t.frame frame)

/-- An empty REMOVEXATTR body with one announced extension word. -/
def overrunningRemovexattr : FuseInHeader :=
  { opcode := Opcode.removexattr.code, totalExtlen := 1 }

theorem overrunningRemovexattr_reads_outside :
    ¬ParsesInside (fun _ => 0) overrunningRemovexattr ⟨0, 0⟩ := by
  apply overrun_not_parsesInside
  constructor
  · rfl
  · decide

end Fex
