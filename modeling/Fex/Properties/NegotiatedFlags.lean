import Fex.Foundation.Words
import Fex.Properties.NegotiatedLimits

/-!
# The flags negotiated by INIT

## Main result

`keepsFlags_iff`: whatever the daemon's `init` does to `info.flags`, the kernel ends up with
FUSE_OVER_IO_URING and otherwise with the daemon's flags, just when the daemon leaves
FUSE_INIT_EXT set. If the daemon clears it, the kernel never looks at `flags2`, where
FUSE_OVER_IO_URING is.

## Proof strategy

The reply carries the two halves of one word (`initOut_flags`). With FUSE_INIT_EXT the kernel
joins them again; without it the lower half alone is left, and that half does not reach
FUSE_OVER_IO_URING.
-/
namespace Fex

open Foundation Program

/-! ### The kernel's reading of the reply -/

/-- What the kernel takes from a `fuse_init_out`. -/
structure KernelInit where
  flags : UInt64
  maxPages : Option UInt16
  deriving DecidableEq

/-- `flags2` holds the bits 32 to 63 only if FUSE_INIT_EXT is set, and `max_pages` counts only
if FUSE_MAX_PAGES is. -/
def FuseInitOut.kernelInit (out : FuseInitOut) : KernelInit :=
  let low := out.flags.toUInt64
  let flags := if low &&& fuseInitExt ≠ 0 then low ||| (out.flags2.toUInt64 <<< 32) else low
  { flags, maxPages := if flags &&& fuseMaxPages ≠ 0 then some out.maxPages else none }

/-- The kernel has the io_uring transport and, but for the two flags of the library, what the
daemon left in `info`. -/
structure FlagsKept (info : InitInfo) (out : FuseInitOut) : Prop where
  uring : out.kernelInit.flags &&& fuseOverIoUring ≠ 0
  others : out.kernelInit.flags &&& ~~~(fuseInitExt ||| fuseOverIoUring) =
    info.flags &&& ~~~(fuseInitExt ||| fuseOverIoUring)
  maxPages : out.kernelInit.maxPages =
    if info.flags &&& fuseMaxPages ≠ 0 then some info.maxPages else none

/-- Whenever INIT is accepted by a daemon in state `s` with our major version, its flags reach
the kernel. -/
def KeepsFlags {σ : Type} (fs : Filesystem σ) (opts : SessionOptions) (s : σ)
    (req : FuseInitIn) : Prop :=
  ∀ (h : FuseInHeader) (body : Span) (r : Replier) (w : World σ) (info : InitInfo), w.fs = s →
    decodeAt (w.mem .scratch) h body = .accept (.init req) →
    FuseInitOut.codec.size ≤ r.cap →
    (fs.init (initInfo opts req) s).1 = .ok info → info.kernelMajor = fuseKernelVersion →
    let done := run (World.step fs) (dispatch opts h body r) w
    done.1.negErr = 0 ∧ done.1.len = FuseInitOut.codec.size ∧ FlagsKept info (initReply r done.2)

/-- The daemon does not clear FUSE_INIT_EXT. -/
def LeavesExt {σ : Type} (fs : Filesystem σ) (opts : SessionOptions) (s : σ)
    (req : FuseInitIn) : Prop :=
  ∀ info, (fs.init (initInfo opts req) s).1 = .ok info → info.kernelMajor = fuseKernelVersion →
    info.flags &&& fuseInitExt ≠ 0

/-! ### The two halves -/

section Halves

variable (req : FuseInitIn) (info : InitInfo)

theorem initOut_flags :
    (initOut req info).flags.toUInt64 = lowHalf (info.flags ||| fuseOverIoUring) := rfl

/-- FUSE_INIT_EXT arrives as the daemon left it. -/
theorem initOut_ext :
    (initOut req info).flags.toUInt64 &&& fuseInitExt = info.flags &&& fuseInitExt := by
  rw [initOut_flags, lowHalf_and_of_low _ (by decide), or_and_of_disjoint _ (by decide)]

/-- With FUSE_INIT_EXT the kernel has the whole word again. -/
theorem kernelInit_flags_of_ext (ext : info.flags &&& fuseInitExt ≠ 0) :
    (initOut req info).kernelInit.flags = info.flags ||| fuseOverIoUring := by
  have set : (initOut req info).flags.toUInt64 &&& fuseInitExt ≠ 0 := by
    rw [initOut_ext]
    exact ext
  simp only [FuseInitOut.kernelInit, if_pos set]
  exact join_halves _

/-- Without it, the lower half. -/
theorem kernelInit_flags_of_no_ext (clear : info.flags &&& fuseInitExt = 0) :
    (initOut req info).kernelInit.flags = lowHalf (info.flags ||| fuseOverIoUring) := by
  have unset : ¬(initOut req info).flags.toUInt64 &&& fuseInitExt ≠ 0 := by
    rw [initOut_ext]
    exact not_not.mpr clear
  simp only [FuseInitOut.kernelInit, if_neg unset]
  exact initOut_flags req info

/-- The flags arrive just when FUSE_INIT_EXT does. -/
theorem flagsKept_initOut_iff :
    FlagsKept info (initOut req info) ↔ info.flags &&& fuseInitExt ≠ 0 := by
  constructor
  · intro kept clear
    -- The upper half is lost, and FUSE_OVER_IO_URING with it.
    apply kept.uring
    rw [kernelInit_flags_of_no_ext req info clear]
    exact lowHalf_and_of_high _ (by decide)
  · intro ext
    have flags := kernelInit_flags_of_ext req info ext
    constructor
    · rw [flags, or_and_added]
      decide
    · rw [flags]
      exact or_and_of_disjoint _ (by decide)
    · have pages : (initOut req info).kernelInit.maxPages =
          if (initOut req info).kernelInit.flags &&& fuseMaxPages ≠ 0 then some info.maxPages
          else none := rfl
      rw [pages, flags, or_and_of_disjoint _ (by decide)]

end Halves

/-! ### The equivalence -/

/-- INIT that is accepted with our version replies with `initOut`. -/
theorem dispatch_init {σ : Type} {fs : Filesystem σ} {opts : SessionOptions} {req : FuseInitIn}
    {h : FuseInHeader} {body : Span} {r : Replier} {w : World σ} {info : InitInfo}
    (decoded : decodeAt (w.mem .scratch) h body = .accept (.init req))
    (room : FuseInitOut.codec.size ≤ r.cap)
    (accepts : (fs.init (initInfo opts req) w.fs).1 = .ok info)
    (version : info.kernelMajor = fuseKernelVersion) :
    let done := run (World.step fs) (dispatch opts h body r) w
    done.1.negErr = 0 ∧ done.1.len = FuseInitOut.codec.size ∧
      initReply r done.2 = initOut req info := by
  have reply := run_serveInit fs opts r w req accepts room
  rw [initAnswer, if_neg (not_not.mpr version)] at reply
  rw [dispatch_leaf _ _ _ _ (decodeAt_leaf decoded), run_dispatchLeaf, decoded]
  exact reply

/-- The daemon's flags reach the kernel just when FUSE_INIT_EXT is among them. -/
theorem keepsFlags_iff {σ : Type} (fs : Filesystem σ) (opts : SessionOptions) (s : σ)
    (req : FuseInitIn) (offers : kernelFlags req &&& fuseOverIoUring ≠ 0) :
    KeepsFlags fs opts s req ↔ LeavesExt fs opts s req := by
  constructor
  · intro keeps info accepts version
    -- Any request will do, so take one that holds nothing else.
    have decoded := decodeAt_initBody req s offers
    have kept := (keeps { opcode := Opcode.init.code } ⟨0, FuseInitIn.codec.size⟩
      { cap := FuseInitOut.codec.size } (initBody req s) info rfl decoded (Nat.le_refl _) accepts
      version).2.2
    rw [(dispatch_init decoded (Nat.le_refl _) accepts version).2.2] at kept
    exact (flagsKept_initOut_iff req info).mp kept
  · rintro leaves h body r w info rfl decoded room accepts version
    obtain ⟨success, sized, reply⟩ := dispatch_init decoded room accepts version
    refine ⟨success, sized, ?_⟩
    rw [reply]
    exact (flagsKept_initOut_iff req info).mpr (leaves info accepts version)

/-- A daemon that takes the offer keeps FUSE_INIT_EXT. -/
theorem keepsFlags_iff_offered : KeepsFlags takesOffers {} () uringInit := by
  apply (keepsFlags_iff takesOffers {} () uringInit (by decide)).mpr
  intro info accepts version
  cases accepts
  decide

/-- A daemon that clears FUSE_INIT_EXT and leaves the other flags alone. -/
def clearsExt : Filesystem Unit :=
  { Filesystem.failing Errc.functionNotSupported with
    init := fun info s => (.ok { info with flags := info.flags &&& ~~~fuseInitExt }, s) }

/-- The flags it leaves. -/
def clearedInfo : InitInfo :=
  let offer := initInfo {} uringInit
  { offer with flags := offer.flags &&& ~~~fuseInitExt }

/-- FUSE_OVER_IO_URING is in the word that INIT replies with, but not in what the kernel reads
there. -/
theorem cleared_ext_loses_uring :
    (clearedInfo.flags ||| fuseOverIoUring) &&& fuseOverIoUring ≠ 0 ∧
      (initOut uringInit clearedInfo).kernelInit.flags &&& fuseOverIoUring = 0 ∧
      initReply { cap := 64 } (run (World.step clearsExt)
        (dispatch {} { opcode := Opcode.init.code } ⟨0, 64⟩ { cap := 64 })
        (initBody uringInit ())).2 = initOut uringInit clearedInfo ∧
      ¬KeepsFlags clearsExt {} () uringInit := by
  have decoded : decodeAt ((initBody uringInit ()).mem .scratch) { opcode := Opcode.init.code }
      ⟨0, 64⟩ = .accept (.init uringInit) := decodeAt_initBody uringInit () (by decide)
  have accepts : (clearsExt.init (initInfo {} uringInit) ()).1 = .ok clearedInfo := rfl
  have version : clearedInfo.kernelMajor = fuseKernelVersion := rfl
  have reply := dispatch_init (r := { cap := 64 }) decoded (by decide) accepts version
  refine ⟨by decide, by decide, reply.2.2, ?_⟩
  intro keeps
  have kept := (keeps { opcode := Opcode.init.code } ⟨0, 64⟩ { cap := 64 } _ _ rfl decoded
    (by decide) accepts version).2.2
  rw [reply.2.2] at kept
  exact kept.uring (by decide)

end Fex
