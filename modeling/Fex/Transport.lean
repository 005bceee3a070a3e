import Fex.Compound
import Fex.UringWorker

/-!
# A request through a ring slot

What `handle_one` does around the dispatch: it reads the slot's headers, assembles
the body in the scratch and publishes the reply. `run_handleOne` says so in terms of
the slot's bytes; the rest of the development uses it instead of the handler's text.
-/
namespace Fex

open Foundation Program

section Slot

variable {σ : Type} (w : World σ)

/-- The `ring_ent_in_out` of the request in the slot. -/
def slotEnt : FuseUringEntInOut :=
  FuseUringEntInOut.codec.dec ((w.mem .slot).read ringEntOff FuseUringEntInOut.codec.size)

/-- The in-header of the request in the slot. -/
def slotHeader : FuseInHeader :=
  FuseInHeader.codec.dec ((w.mem .slot).read 0 FuseInHeader.codec.size)

/-- The size of `in_args[0]` as `handle_one` derives it. -/
def slotFirstArg : Nat := firstArgSize (slotHeader w) (slotEnt w).payloadSz.toNat

def slotBodyLen : Nat := slotFirstArg w + (slotEnt w).payloadSz.toNat

/-- The check before anything is copied. -/
def Oversize (e : Entry) : Prop :=
  slotFirstArg w > fuseUringOpInOutSz ∨ slotBodyLen w > e.scratchLen

instance (e : Entry) : Decidable (Oversize w e) := inferInstanceAs (Decidable (_ ∨ _))

variable {w} in
theorem slotFirstArg_le {e : Entry} (fits : ¬Oversize w e) :
    slotFirstArg w ≤ fuseUringOpInOutSz :=
  Nat.le_of_not_lt fun longer => fits (.inl longer)

theorem oversize_commitId (e : Entry) (id : UInt64) :
    Oversize w { e with commitId := id } ↔ Oversize w e := by
  unfold Oversize
  exact Iff.rfl

/-- The world in which the body has been assembled. -/
def assembled : World σ :=
  (w.write .scratch 0 ((w.mem .slot).read opInOff (slotFirstArg w))).write .scratch
    (slotFirstArg w) ((w.mem .slot).read uringReqHeaderSize (slotEnt w).payloadSz.toNat)

/-- The world in which a reply has been published. -/
def published (outh : FuseOutHeader) (replySz : UInt32) : World σ :=
  (w.write .slot 0 (FuseOutHeader.codec.enc outh)).write .slot payloadSzOff
    (Codec.u32.enc replySz)

/-- The `Replier` over the slot's payload area. -/
def slotReplier (payloadBytes : Nat) : Replier :=
  { out := uringReqHeaderSize, cap := payloadBytes, unique := (slotHeader w).unique }

/-- The call of `dispatch` in the assembled world. -/
def slotDispatch (opts : SessionOptions) (payloadBytes : Nat) : Handler Replier :=
  dispatch opts (slotHeader w) ⟨0, slotBodyLen w⟩ (slotReplier w payloadBytes)

/-- The published size of a filled `Replier`. -/
def replySize32 (r : Replier) : UInt32 := if r.negErr ≠ 0 then 0 else UInt32.ofNat r.len

/-- The header of an oversized request's reply. -/
def oversizeHeader : FuseOutHeader :=
  { unique := (slotHeader w).unique
    error := negErrno Errc.ioError
    len := UInt32.ofNat FuseOutHeader.codec.size }

/-- The refusal is the reply of a `Replier` that failed with EIO. -/
theorem oversizeHeader_eq (payloadBytes : Nat) :
    oversizeHeader w = replyHeader (replyError (slotReplier w payloadBytes) Errc.ioError) := by
  have failed : (replyError (slotReplier w payloadBytes) Errc.ioError).negErr ≠ 0 :=
    show negErrno Errc.ioError ≠ 0 by decide
  rw [replyHeader, if_pos failed]
  rfl

theorem replySize32_error (payloadBytes : Nat) :
    replySize32 (replyError (slotReplier w payloadBytes) Errc.ioError) = 0 :=
  if_pos (show negErrno Errc.ioError ≠ 0 by decide)

end Slot

section Run

variable {σ : Type} (fs : Filesystem σ) (w : World σ)

theorem run_assembleBody (e : Entry) :
    run (World.step fs) (assembleBody e (slotFirstArg w) (slotEnt w).payloadSz.toNat) w =
      ((), assembled w) := by
  unfold assembleBody assembled
  by_cases first : slotFirstArg w = 0
  · by_cases payload : (slotEnt w).payloadSz.toNat = 0
    · simp [first, payload, Memory.read, World.write_nil]
    · simp [first, payload, Memory.read, World.write_nil]
  · by_cases payload : (slotEnt w).payloadSz.toNat = 0
    · simp [first, payload, Memory.read, World.write_nil]
    · simp [first, payload]

theorem callbacks_assembleBody (e : Entry) (first payloadSz : Nat) :
    callbacks (trace (World.step fs) (assembleBody e first payloadSz) w) = [] := by
  unfold assembleBody
  by_cases none : first = 0
  · by_cases empty : payloadSz = 0 <;> simp [none, empty]
  · by_cases empty : payloadSz = 0 <;> simp [none, empty]

theorem run_publish (e : Entry) (outh : FuseOutHeader) (replySz : UInt32) :
    run (World.step fs) (publish e outh replySz) w = ((e, replySz), published w outh replySz) := by
  simp [publish, published]

theorem callbacks_publish (e : Entry) (outh : FuseOutHeader) (replySz : UInt32) :
    callbacks (trace (World.step fs) (publish e outh replySz) w) = [] := by
  simp [publish]

/-- `handle_one` once the two headers have been read. -/
def afterHeaders (opts : SessionOptions) (payloadBytes : Nat) (e : Entry) :
    Handler (Entry × UInt32) :=
  if Oversize w e then publish e (oversizeHeader w) 0
  else do
    assembleBody e (slotFirstArg w) (slotEnt w).payloadSz.toNat
    let r ← slotDispatch w opts payloadBytes
    publish e (replyHeader r) (replySize32 r)

theorem run_handleOne (opts : SessionOptions) (payloadBytes : Nat) (e : Entry) :
    run (World.step fs) (handleOne opts payloadBytes e) w = run (World.step fs)
      (afterHeaders w opts payloadBytes { e with commitId := (slotEnt w).commitId }) w := by
  unfold handleOne
  rw [run_bind, run_bind]
  rfl

theorem trace_handleOne (opts : SessionOptions) (payloadBytes : Nat) (e : Entry) :
    trace (World.step fs) (handleOne opts payloadBytes e) w =
      trace (World.step fs) (load .slot ⟨0, e.bufLen⟩ ringEntOff FuseUringEntInOut.codec.size) w ++
      (trace (World.step fs) (load .slot ⟨0, e.bufLen⟩ 0 FuseInHeader.codec.size) w ++
      trace (World.step fs)
        (afterHeaders w opts payloadBytes { e with commitId := (slotEnt w).commitId }) w) := by
  unfold handleOne
  rw [trace_bind, trace_bind]
  rfl

/-- An oversized request is refused with EIO and nothing else happens. -/
theorem handleOne_oversize (opts : SessionOptions) (payloadBytes : Nat) (e : Entry)
    (oversized : Oversize w e) :
    run (World.step fs) (handleOne opts payloadBytes e) w =
        (({ e with commitId := (slotEnt w).commitId }, 0), published w (oversizeHeader w) 0) ∧
      callbacks (trace (World.step fs) (handleOne opts payloadBytes e) w) = [] := by
  -- The commit id is captured before the check and does not matter to it.
  have same := (oversize_commitId w e (slotEnt w).commitId).mpr oversized
  rw [run_handleOne, trace_handleOne, afterHeaders, if_pos same, run_publish]
  simp only [callbacks_append, callbacks_load, callbacks_publish, List.nil_append, and_self]

/-- Any other request is dispatched once, over the assembled body, and the reply is
published. -/
theorem handleOne_dispatches (opts : SessionOptions) (payloadBytes : Nat) (e : Entry)
    (fits : ¬Oversize w e) :
    let done := run (World.step fs) (slotDispatch w opts payloadBytes) (assembled w)
    run (World.step fs) (handleOne opts payloadBytes e) w =
        (({ e with commitId := (slotEnt w).commitId }, replySize32 done.1),
          published done.2 (replyHeader done.1) (replySize32 done.1)) ∧
      callbacks (trace (World.step fs) (handleOne opts payloadBytes e) w) =
        callbacks (trace (World.step fs) (slotDispatch w opts payloadBytes) (assembled w)) := by
  have same := mt (oversize_commitId w e (slotEnt w).commitId).mp fits
  rw [run_handleOne, trace_handleOne, afterHeaders, if_neg same]
  simp only [run_bind, trace_bind, run_assembleBody, run_publish, callbacks_append,
    callbacks_load, callbacks_assembleBody, callbacks_publish, List.nil_append, List.append_nil,
    and_self]

/-- Whatever becomes of the request, its commit id is what the entry keeps. -/
theorem handleOne_commitId (opts : SessionOptions) (payloadBytes : Nat) (e : Entry) :
    (run (World.step fs) (handleOne opts payloadBytes e) w).1.1.commitId =
      (slotEnt w).commitId := by
  by_cases oversized : Oversize w e
  · rw [(handleOne_oversize fs w opts payloadBytes e oversized).1]
  · rw [(handleOne_dispatches fs w opts payloadBytes e oversized).1]

/-! ### The published slot -/

variable {w}

/-- The out-header the kernel finds in the slot. -/
def slotOutHeader (w : World σ) : FuseOutHeader :=
  FuseOutHeader.codec.dec ((w.mem .slot).read 0 FuseOutHeader.codec.size)

theorem published_header (outh : FuseOutHeader) (replySz : UInt32) :
    slotOutHeader (published w outh replySz) = outh := by
  -- `payload_sz` is written later, but behind the header.
  have same := Memory.read_write_same (w.mem .slot) 0 (FuseOutHeader.codec.enc outh)
  rw [Codec.length_enc] at same
  simp only [slotOutHeader, published, World.write_mem_same]
  rw [Memory.read_write_disjoint _ _ _ _ _ (.inl (by decide)), same, Codec.dec_enc]

/-- `payload_sz` is the word at its own offset. -/
theorem slotEnt_payloadSz (w : World σ) :
    (slotEnt w).payloadSz =
      Codec.u32.dec ((w.mem .slot).read payloadSzOff Codec.u32.size) := by
  -- It follows the two words `flags` and `commit_id`.
  have slice := Memory.read_slice (w.mem .slot) ringEntOff FuseUringEntInOut.codec.size 16
    Codec.u32.size (by decide)
  have field : (slotEnt w).payloadSz = Codec.u32.dec (((((w.mem .slot).read ringEntOff
      FuseUringEntInOut.codec.size).drop Codec.u64.size).drop Codec.u64.size).take
        Codec.u32.size) := rfl
  rw [field, List.drop_drop, payloadSzOff, slice]
  rfl

theorem published_payloadSz (outh : FuseOutHeader) (replySz : UInt32) :
    (slotEnt (published w outh replySz)).payloadSz = replySz := by
  have same := Memory.read_write_same ((w.write .slot 0 (FuseOutHeader.codec.enc outh)).mem .slot)
    payloadSzOff (Codec.u32.enc replySz)
  rw [Codec.length_enc] at same
  rw [slotEnt_payloadSz, published, World.write_mem_same, same, Codec.dec_enc]

/-- Publishing does not touch the payload area. -/
theorem published_payload (outh : FuseOutHeader) (replySz : UInt32) (len : Nat) :
    ((published w outh replySz).mem .slot).read uringReqHeaderSize len =
      (w.mem .slot).read uringReqHeaderSize len := by
  simp only [published, World.write_mem_same]
  rw [Memory.read_write_disjoint _ _ _ _ _ (.inr (by rw [Codec.length_enc]; decide)),
    Memory.read_write_disjoint _ _ _ _ _ (.inr (by rw [Codec.length_enc]; decide))]

end Run

/-! ### Requests laid out by the kernel -/

/-- The world `w` after the kernel has laid out a request in its slot. -/
def layOut {σ : Type} (w : World σ) (h : FuseInHeader) (first : Bytes) (rest : List Bytes) :
    World σ :=
  (((w.write .slot 0 (FuseInHeader.codec.enc h)).write .slot opInOff first).write .slot
    payloadSzOff (Codec.u32.enc (UInt32.ofNat rest.flatten.length))).write .slot
      uringReqHeaderSize rest.flatten

/-- A world with empty buffers. -/
def idle {σ : Type} (fs : σ) : World σ := { mem := fun _ _ => 0, initDone := true, fs := fs }

end Fex
