import Fex.Scripted
import Fex.Sequential

/-!
# When a failed compound has had no effect

## Main result

`failsUncalled_iff`: for which bodies and reply capacities a COMPOUND that fails as a
whole has made no callback, whatever the daemon. The loop validates a frame only after
the frames before it were executed, so this depends on whether a frame that makes a
callback can be followed by a malformed one or by one without room.

## Proof strategy

How much room a frame takes is up to the daemon, within the shape of the frame's reply
(`Round.spends`). `MayFailCalled` explores every such choice; a run follows one of them
(`runFrames_mayFailCalled`), and the scripted daemon follows any (`scripted_fails`).
-/
namespace Fex

open Foundation Program

/-- A request was decoded, which the daemon is called for. -/
def Decoded.isRequest : Decoded → Bool
  | accept _ => true
  | reject _ | ignore => false

theorem Decoded.callbacks_ne_nil_iff (opts : SessionOptions) (h : FuseInHeader) (r : Replier)
    (slot : Memory) (d : Decoded) : d.callbacks opts h r slot ≠ [] ↔ d.isRequest = true := by
  cases d with
  | accept q => simp [Decoded.callbacks, Decoded.isRequest]
  | reject e => simp [Decoded.callbacks, Decoded.isRequest]
  | ignore => simp [Decoded.callbacks, Decoded.isRequest]

/-- The frames may fail with the daemon called, by them or (`called`) before them: some
choice of reply lengths leads to a frame without room for its out-header, or past the
last frame to a malformed one. -/
def MayFailCalled (m : Memory) (clean : Bool) :
    (called : Bool) → List Frame → (room : Nat) → Prop
  | called, [], _ => called = true ∧ clean = false
  | called, f :: rest, room =>
    if room < FuseOutHeader.codec.size then called = true
    else ∃ len, (f.decoded m).shape.Allows (room - FuseOutHeader.codec.size) len ∧
      MayFailCalled m clean (called || (f.decoded m).isRequest) rest
        (room - (FuseOutHeader.codec.size + len) % 2 ^ 32)

/-- A compound with this body and reply capacity that fails has not called the daemon. -/
def FailsUncalled (m : Memory) (body : Span) (cap : Nat) : Prop :=
  ∀ (σ : Type) (fs : Filesystem σ) (opts : SessionOptions) (h : FuseInHeader) (r : Replier)
    (w : World σ), r.cap = cap → w.mem .scratch = m →
    (run (World.step fs) (handleCompound (dispatch opts) h body r) w).1.negErr ≠ 0 →
    callbacks (trace (World.step fs) (handleCompound (dispatch opts) h body r) w) = []

section Rounds

variable {σ : Type} (fs : Filesystem σ) (opts : SessionOptions) (r : Replier)

/-- A round takes the room of its out-header and of a reply its frame's shape allows. -/
theorem Round.spends (t : Round σ) :
    ∃ len, (t.frame.decoded (t.start.world.mem .scratch)).shape.Allows
        (r.cap - t.start.outP - FuseOutHeader.codec.size) len ∧
      (t.next fs (dispatchLeaf opts) r).outP =
        t.start.outP + (FuseOutHeader.codec.size + len) % 2 ^ 32 := by
  refine ⟨_, ?_, t.next_outP fs (dispatchLeaf opts) r⟩
  have errors : fs.ErrorsSatisfy fun _ => True := fun _ _ _ _ => trivial
  have replied := dispatchLeaf_replied fs t.start.world opts t.header t.frame.payload
    (t.replier r) errors
  rw [Round.decoded_header] at replied
  rw [Round.result, Round.handler_leaf, Replier.effective]
  split
  · exact ReplyShape.allows_zero ..
  · exact replied.allows

/-- A round makes a callback just when its frame decodes to a request. -/
theorem Round.callbacks_log_ne_nil_iff (t : Round σ) :
    callbacks (t.log fs (dispatchLeaf opts) r) ≠ [] ↔
      (t.frame.decoded (t.start.world.mem .scratch)).isRequest = true := by
  rw [Round.log, Round.handler_leaf, callbacks_dispatchLeaf, Round.decoded_header]
  exact Decoded.callbacks_ne_nil_iff ..

/-- Some round has called the daemon. -/
def Progress.Called (progress : Progress σ) : Prop :=
  ∃ t ∈ progress.rounds, callbacks (t.log fs (dispatchLeaf opts) r) ≠ []

/-- Whether the daemon has been called after a round and the rounds behind it. -/
theorem called_cons (t : Round σ) (later : Progress σ) (called : Bool) :
    called = true ∨ Progress.Called fs opts r { later with rounds := t :: later.rounds } ↔
      (called || (t.frame.decoded (t.start.world.mem .scratch)).isRequest) = true ∨
        later.Called fs opts r := by
  have here := t.callbacks_log_ne_nil_iff fs opts r
  simp only [Progress.Called, List.mem_cons, exists_eq_or_imp, Bool.or_eq_true, or_assoc, here]

/-! ### Every failing run is foreseen -/

theorem runFrames_mayFailCalled (clean called : Bool) (frames : List Frame) (c : Cursor σ)
    (fails : ¬(clean ∧ (runFrames fs (dispatchLeaf opts) r frames c).finished))
    (calls : called = true ∨ (runFrames fs (dispatchLeaf opts) r frames c).Called fs opts r) :
    MayFailCalled (c.world.mem .scratch) clean called frames (r.cap - c.outP) := by
  have tame := dispatchLeaf_tame_any fs opts
  induction frames generalizing called c with
  | nil =>
    rcases calls with called | ⟨t, member, -⟩
    · exact ⟨called, by simpa [runFrames] using fails⟩
    · cases member
  | cons f rest ih =>
    rw [runFrames] at fails calls
    rw [MayFailCalled]
    by_cases full : c.outP + FuseOutHeader.codec.size > r.cap
    · rw [if_pos full] at calls
      rw [if_pos (by simp only [FuseOutHeader.codec_size] at full ⊢; omega)]
      rcases calls with called | ⟨t, member, -⟩
      · exact called
      · cases member
    · rw [if_neg full] at fails calls
      rw [if_neg (by omega)]
      -- The length this round's reply really has is among those the shape allows.
      obtain ⟨len, allows, moved⟩ := Round.spends fs opts r ⟨f, c⟩
      have later := ih _ (Round.next fs (dispatchLeaf opts) r ⟨f, c⟩) fails
        ((called_cons fs opts r ⟨f, c⟩ _ called).mp calls)
      rw [Round.next_scratch r tame ⟨f, c⟩, moved, ← Nat.sub_sub] at later
      exact ⟨len, allows, later⟩

/-! ### Every foreseen failure happens to some daemon -/

theorem scripted_fails (m : Memory) (clean called : Bool) (frames : List Frame) (outP : Nat)
    (may : MayFailCalled m clean called frames (r.cap - outP)) :
    ∃ script, ∀ c : Cursor (List Nat), c.outP = outP → c.world.fs = script →
      c.world.mem .scratch = m →
        ¬(clean ∧ (runFrames scripted (dispatchLeaf opts) r frames c).finished) ∧
        (called = true ∨
          (runFrames scripted (dispatchLeaf opts) r frames c).Called scripted opts r) := by
  have tame := dispatchLeaf_tame_any scripted opts
  induction frames generalizing called outP with
  | nil =>
    obtain ⟨called, unclean⟩ := may
    exact ⟨[], fun c _ _ _ => ⟨by simp [unclean], .inl called⟩⟩
  | cons f rest ih =>
    rw [MayFailCalled] at may
    split at may
    next full =>
      -- The daemon was called before, and this frame does not fit.
      refine ⟨[], ?_⟩
      rintro c rfl - -
      rw [runFrames, if_pos (by omega)]
      exact ⟨by simp, .inl may⟩
    next room =>
      -- The script lets this frame reply with just that length.
      obtain ⟨len, allows, may⟩ := may
      rw [Nat.sub_sub] at may
      obtain ⟨script, goes⟩ := ih _ _ may
      refine ⟨(f.decoded m).schedule len script, ?_⟩
      rintro c rfl next rfl
      obtain ⟨moved, left⟩ := scripted_round opts r ⟨f, c⟩ next allows
      obtain ⟨fails, calls⟩ := goes _ moved left (Round.next_scratch r tame ⟨f, c⟩)
      rw [runFrames, if_neg (by simp only [FuseOutHeader.codec_size] at room ⊢; omega)]
      exact ⟨fails, (called_cons scripted opts r ⟨f, c⟩ _ called).mpr calls⟩

end Rounds

/-! ### The handler -/

section Handler

variable {σ : Type} (fs : Filesystem σ) (opts : SessionOptions) (h : FuseInHeader) (body : Span)
  (r : Replier) (w : World σ)

/-- A compound with room for its fixed parts fails when its frames are not clean or not
finished, and calls the daemon when one of its rounds does. -/
theorem handleCompound_outcome
    (large : ¬(body.len < FuseCompoundIn.codec.size ∨ r.cap < FuseCompoundOut.codec.size)) :
    let progress := compoundProgress fs (dispatchLeaf opts) r body w
    ((run (World.step fs) (handleCompound (dispatch opts) h body r) w).1.negErr ≠ 0 ↔
      ¬((compoundFrames (w.mem .scratch) body).2 ∧ progress.finished)) ∧
    (callbacks (trace (World.step fs) (handleCompound (dispatch opts) h body r) w) ≠ [] ↔
      progress.Called fs opts r) := by
  intro progress
  have tame := dispatchLeaf_tame_any fs opts
  have spec := handleCompound_spec tame h body r w large
  rw [handleCompound_dispatch, spec.result, spec.calls]
  refine ⟨?_, ?_⟩
  · dsimp only [verdict]
    split
    next ok => simp [progress, ok]
    next failed =>
      have error : (replyError r Errc.invalidArgument).negErr ≠ 0 :=
        show negErrno Errc.invalidArgument ≠ 0 by decide
      exact iff_of_true error failed
  · simp only [Progress.Called, ne_eq, List.flatMap_eq_nil_iff, not_forall, exists_prop, progress]

theorem handleCompound_uncalled
    (never : ¬MayFailCalled (w.mem .scratch) (compoundFrames (w.mem .scratch) body).2 false
      (compoundFrames (w.mem .scratch) body).1 (r.cap - FuseCompoundOut.codec.size))
    (failed : (run (World.step fs) (handleCompound (dispatch opts) h body r) w).1.negErr ≠ 0)
    (large : ¬(body.len < FuseCompoundIn.codec.size ∨ r.cap < FuseCompoundOut.codec.size)) :
    callbacks (trace (World.step fs) (handleCompound (dispatch opts) h body r) w) = [] := by
  obtain ⟨fails, calls⟩ := handleCompound_outcome fs opts h body r w large
  by_contra called
  have may := runFrames_mayFailCalled fs opts r _ false _ (compoundStart r w) (fails.mp failed)
    (.inr (calls.mp called))
  have scanned : (compoundStart r w).world.mem .scratch = w.mem .scratch := by
    simp [compoundStart]
  rw [scanned] at may
  exact never may

end Handler

theorem not_failsUncalled {m : Memory} {body : Span} {cap : Nat}
    (large : ¬(body.len < FuseCompoundIn.codec.size ∨ cap < FuseCompoundOut.codec.size))
    (may : MayFailCalled m (compoundFrames m body).2 false (compoundFrames m body).1
      (cap - FuseCompoundOut.codec.size)) : ¬FailsUncalled m body cap := by
  intro uncalled
  let r : Replier := { cap := cap }
  obtain ⟨script, goes⟩ := scripted_fails {} r m _ false _ _ may
  let w : World (List Nat) := { mem := fun _ => m, initDone := true, fs := script }
  obtain ⟨fails, calls⟩ := handleCompound_outcome scripted {} {} body r w large
  obtain ⟨failed, called⟩ := goes (compoundStart r w) rfl rfl (World.write_mem_scratch ..)
  have none := uncalled (List Nat) scripted {} {} r w rfl rfl (fails.mpr failed)
  rcases called with before | called
  · cases before
  · exact calls.mpr called none

/-- A failed compound has called no one just when its fixed parts did not fit, or no
request among its frames can be followed by a failure. -/
theorem failsUncalled_iff (m : Memory) (body : Span) (cap : Nat) :
    FailsUncalled m body cap ↔
      body.len < FuseCompoundIn.codec.size ∨ cap < FuseCompoundOut.codec.size ∨
        ¬MayFailCalled m (compoundFrames m body).2 false (compoundFrames m body).1
          (cap - FuseCompoundOut.codec.size) := by
  rw [← or_assoc]
  constructor
  · intro uncalled
    by_contra condition
    rw [not_or, not_not] at condition
    exact not_failsUncalled condition.1 condition.2 uncalled
  · rintro condition σ fs opts h r w rfl rfl failed
    by_cases large : body.len < FuseCompoundIn.codec.size ∨ r.cap < FuseCompoundOut.codec.size
    · rw [handleCompound_small h large]
      rfl
    · exact handleCompound_uncalled fs opts h body r w (condition.resolve_left large) failed large

/-! ### An unlink that the kernel never learns of -/

/-- UNLINK of `a` in the root directory. -/
def unlinkRequest : SubRequest where
  req := { depIndex := fuseCompoundNoDep }
  header := { len := 42, opcode := Opcode.unlink.code, nodeid := 1 }
  payload := [97, 0]
  len_eq := rfl

/-- A compound body of that sub-request and one byte more. -/
def truncatedCompound : Memory :=
  Memory.write (fun _ => 0) FuseCompoundIn.codec.size unlinkRequest.encode

theorem truncatedCompound_calls : ¬FailsUncalled truncatedCompound ⟨0, 63⟩ 4096 := by
  apply not_failsUncalled (by decide)
  have frames : compoundFrames truncatedCompound ⟨0, 63⟩ = ([unlinkRequest.frame 16], false) := rfl
  rw [frames]
  exact ⟨0, ReplyShape.allows_zero _ _, rfl, rfl⟩

end Fex
