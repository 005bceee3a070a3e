import Fex.Handlers

/-!
# COMPOUND and the top-level dispatch

`handle_compound` and `dispatch` call each other, but a nested compound is refused
before the call, so the recursion is one level deep: `dispatchLeaf` is the switch
that compound frames reach, and `handleCompound_dispatch` shows that replacing it by
`dispatch` itself changes nothing.
-/
namespace Fex

open Foundation

/-- A handler as seen by the dispatcher. -/
abbrev Dispatcher := FuseInHeader → Span → Replier → Handler Replier

/-- The sub-header with the nodeid its producer left in `produced`. -/
def threadNodeid (produced : List UInt64) (subReq : FuseCompoundReqIn) (subH : FuseInHeader) :
    FuseInHeader :=
  if subReq.depIndex ≠ fuseCompoundNoDep ∧ subReq.depIndex.toNat < produced.length then
    { subH with nodeid := produced.getD subReq.depIndex.toNat 0 }
  else subH

@[simp] theorem threadNodeid_opcode (produced : List UInt64) (req : FuseCompoundReqIn)
    (h : FuseInHeader) : (threadNodeid produced req h).opcode = h.opcode := by
  unfold threadNodeid
  split <;> rfl

@[simp] theorem extBytes_threadNodeid (produced : List UInt64) (req : FuseCompoundReqIn)
    (h : FuseInHeader) : extBytes (threadNodeid produced req h) = extBytes h := by
  unfold threadNodeid
  split <;> rfl

/-- The `Replier` carved out of `r` behind the sub-reply's out-header. -/
def carve (r : Replier) (outP : Nat) (unique : UInt64) : Replier :=
  { out := r.out + outP + FuseOutHeader.codec.size
    cap := r.cap - outP - FuseOutHeader.codec.size
    unique := unique }

/-- Run one sub-request; a nested compound is refused without a dispatch. -/
def dispatchSub (dispatch : Dispatcher) (subH : FuseInHeader) (payload : Span)
    (subR : Replier) : Handler Replier :=
  if subH.opcode = Opcode.compound.code then
    pure (replyError subR Errc.operationNotSupported)
  else dispatch subH payload subR

/-- LOOKUPX, MKOBJX and LOOKUP_ROOT: the reply starts with a nodeid. -/
def producesEntry (opcode : UInt32) : Bool :=
  opcode = Opcode.lookupx.code || opcode = Opcode.mkobjx.code || opcode = Opcode.lookupRoot.code

/-- What a finished sub-request contributes to `produced`. -/
def producedBy (subH : FuseInHeader) (subR : Replier) : Handler UInt64 :=
  if subR.negErr = 0 ∧ subR.len ≥ Codec.u64.size ∧ producesEntry subH.opcode then do
    let bytes ← load .slot subR.span 0 Codec.u64.size
    return Codec.u64.dec bytes
  else return 0

def subOutHeader (subH : FuseInHeader) (subR : Replier) : FuseOutHeader :=
  { len := UInt32.ofNat (FuseOutHeader.codec.size + if subR.negErr ≠ 0 then 0 else subR.len)
    error := subR.negErr
    unique := subH.unique }

/-- The `while (p < end)` loop. Each round consumes at least 44 bytes of the body, so
`fuel = body.len` rounds are never exhausted (`compoundLoop_fuel`). -/
def compoundLoop (dispatch : Dispatcher) (body : Span) (r : Replier) :
    (fuel p outP : Nat) → (produced : List UInt64) → Handler Replier
  | 0, _, outP, _ => return { r with negErr := 0, len := outP }
  | fuel + 1, p, outP, produced => do
    if p < body.len then
      let hdrs := FuseCompoundReqIn.codec.size + FuseInHeader.codec.size
      -- The two headers of the frame, and a place for its out-header.
      if body.len - p < hdrs ∨ outP + FuseOutHeader.codec.size > r.cap then
        return replyError r Errc.invalidArgument
      let reqBytes ← load .scratch body p FuseCompoundReqIn.codec.size
      let hdrBytes ← load .scratch body (p + FuseCompoundReqIn.codec.size)
        FuseInHeader.codec.size
      let rawH := FuseInHeader.codec.dec hdrBytes
      -- The announced length includes the in-header.
      if rawH.len.toNat < FuseInHeader.codec.size ∨
          body.len - (p + hdrs) < rawH.len.toNat - FuseInHeader.codec.size then
        return replyError r Errc.invalidArgument
      let subLen := rawH.len.toNat - FuseInHeader.codec.size
      let subH := threadNodeid produced (FuseCompoundReqIn.codec.dec reqBytes) rawH
      let subR ← dispatchSub dispatch subH ⟨body.base + (p + hdrs), subLen⟩
        (carve r outP subH.unique)
      let prod ← producedBy subH subR
      let oh := subOutHeader subH subR
      -- In front of what the sub-request has stored.
      store .slot r.span outP (FuseOutHeader.codec.enc oh)
      compoundLoop dispatch body r fuel (p + hdrs + subLen) (outP + oh.len.toNat)
        (produced ++ [prod])
    else return { r with negErr := 0, len := outP }

def handleCompound (dispatch : Dispatcher) (_ : FuseInHeader) (body : Span) (r : Replier) :
    Handler Replier := do
  if body.len < FuseCompoundIn.codec.size ∨ r.cap < FuseCompoundOut.codec.size then
    return replyError r Errc.invalidArgument
  store .slot r.span 0 (FuseCompoundOut.codec.enc {})
  compoundLoop dispatch body r body.len FuseCompoundIn.codec.size FuseCompoundOut.codec.size []

/-- The switch of `dispatch`, with the COMPOUND case left open. -/
def dispatchWith (compound : Dispatcher) (opts : SessionOptions) : Dispatcher := fun h body r =>
  match Opcode.ofCode h.opcode with
  | some .init => handleInit opts h body r
  | some .lookupRoot => handleLookupRoot h r
  | some .lookupx => handleLookupx h body r
  | some .forget => handleForget h body r
  | some .batchForget => handleBatchForget h body r
  | some .statx => handleStatx h body r
  | some .setstatx => handleSetstatx h body r
  | some .mkobjx => handleMkobjx h body r
  | some .unlink => handleUnlink h body r false
  | some .rmdir => handleUnlink h body r true
  | some .rename2 => handleRename2 h body r
  | some .link => handleLink h body r
  | some .read => handleRead h body r
  | some .write => handleWrite h body r
  | some .readlink => handleReadlink h r
  | some .statfs => handleStatfs h r
  | some .fallocate => handleFallocate h body r
  | some .openFile => handleOpen h body r
  | some .release => handleRelease h body r
  | some .opendir => handleOpendir h r
  | some .releasedir => handleReleasedir h body r
  | some .readdir => handleReaddir h body r
  | some .getxattr => handleGetxattr h body r
  | some .setxattr => handleSetxattr h body r
  | some .listxattr => handleListxattr h body r
  | some .removexattr => handleRemovexattr h body r
  | some .compound => compound h body r
  | none => pure (replyError r Errc.functionNotSupported)

/-- Dispatch of the frames of a compound, which are never compounds themselves. -/
def dispatchLeaf (opts : SessionOptions) : Dispatcher :=
  dispatchWith (fun _ _ r => pure (replyError r Errc.operationNotSupported)) opts

def dispatch (opts : SessionOptions) : Dispatcher :=
  dispatchWith (handleCompound (dispatchLeaf opts)) opts

/-! ### The loop and its recursion are closed -/

/-- More fuel than bytes left changes nothing: the loop ends with the body. -/
theorem compoundLoop_fuel (dispatch : Dispatcher) (body : Span) (r : Replier)
    (fuel more p outP : Nat) (produced : List UInt64) (enough : body.len ≤ p + fuel) :
    compoundLoop dispatch body r (fuel + more) p outP produced =
      compoundLoop dispatch body r fuel p outP produced := by
  induction fuel generalizing p outP produced with
  | zero =>
    cases more with
    | zero => rfl
    | succ more =>
      have ended : ¬p < body.len := by omega
      simp only [compoundLoop, if_neg ended]
  | succ fuel ih =>
    -- Each round takes the headers off the rest of the body, so one unit of fuel pays for it.
    have progress : 0 < FuseCompoundReqIn.codec.size := by simp
    rw [Nat.succ_add]
    simp (disch := omega) only [compoundLoop, ih]

theorem dispatchWith_congr (f g : Dispatcher) (opts : SessionOptions) (h : FuseInHeader)
    (body : Span) (r : Replier) (leaf : h.opcode ≠ Opcode.compound.code) :
    dispatchWith f opts h body r = dispatchWith g opts h body r := by
  unfold dispatchWith
  cases is : Opcode.ofCode h.opcode with
  | none => rfl
  | some op =>
    cases op
    case compound => exact absurd ((Opcode.ofCode_eq_some_iff _ _).mp is) leaf
    all_goals rfl

theorem dispatch_leaf (opts : SessionOptions) (h : FuseInHeader) (body : Span) (r : Replier)
    (leaf : h.opcode ≠ Opcode.compound.code) :
    dispatch opts h body r = dispatchLeaf opts h body r :=
  dispatchWith_congr _ _ opts h body r leaf

theorem dispatch_compound (opts : SessionOptions) (h : FuseInHeader) (body : Span) (r : Replier)
    (compound : h.opcode = Opcode.compound.code) :
    dispatch opts h body r = handleCompound (dispatchLeaf opts) h body r := by
  rw [dispatch, dispatchWith, (Opcode.ofCode_eq_some_iff _ _).mpr compound]

theorem dispatchSub_dispatch (opts : SessionOptions) :
    dispatchSub (dispatch opts) = dispatchSub (dispatchLeaf opts) := by
  funext h body r
  unfold dispatchSub
  split
  · rfl
  next leaf => exact dispatch_leaf opts h body r leaf

/-- The leaf switch refuses a compound just as the loop does. -/
theorem dispatchSub_leaf (opts : SessionOptions) :
    dispatchSub (dispatchLeaf opts) = dispatchLeaf opts := by
  funext h body r
  unfold dispatchSub
  split
  next nested =>
    rw [dispatchLeaf, dispatchWith, (Opcode.ofCode_eq_some_iff _ _).mpr nested]
  · rfl

/-- The frames' dispatcher may be read as `dispatch` itself, as in the source. -/
theorem handleCompound_dispatch (opts : SessionOptions) (h : FuseInHeader) (body : Span)
    (r : Replier) :
    handleCompound (dispatch opts) h body r = handleCompound (dispatchLeaf opts) h body r := by
  have loops (fuel p outP : Nat) (produced : List UInt64) :
      compoundLoop (dispatch opts) body r fuel p outP produced =
        compoundLoop (dispatchLeaf opts) body r fuel p outP produced := by
    induction fuel generalizing p outP produced with
    | zero => rfl
    -- The two dispatchers differ on compounds only, and those never reach them.
    | succ fuel ih => simp only [compoundLoop, dispatchSub_dispatch, ih]
  simp only [handleCompound, loops]

end Fex
