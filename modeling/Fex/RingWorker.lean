import Fex.Transport
import Fex.Foundation.Transition

/-!
# The ring worker: the loop around its ring

`RingWorker::run` as a state machine that interleaves the worker with the kernel's
side of the ring. Of liburing and the kernel it assumes that a submit consumes a
prefix of the queued entries or, failing, none; that `io_uring_get_sqe` gives null
only when the queue is full of entries not yet consumed; and that a consumed entry
completes at most once, with its own user data. Which request is delivered, in which
order entries complete, and what the other threads do to the daemon is left open.
-/
namespace Fex

open Foundation Program

/-! ### Queue entries -/

inductive Command where
  | pollAdd
  | register
  | commitAndFetch (commitId : UInt64)
  deriving DecidableEq

structure Sqe where
  userData : UInt64
  cmd : Command
  deriving DecidableEq

structure Cqe where
  userData : UInt64
  res : Int32
  deriving DecidableEq

def kStopSentinel : UInt64 := 0xFFFFFFFFFFFFFFFF

def makeUd (entryIdx : UInt32) : UInt64 := entryIdx.toUInt64

def prepPoll : Sqe := { userData := kStopSentinel, cmd := .pollAdd }

def prepRegister (i : UInt32) : Sqe := { userData := makeUd i, cmd := .register }

def prepCommitAndFetch (i : UInt32) (commitId : UInt64) : Sqe :=
  { userData := makeUd i, cmd := .commitAndFetch commitId }

/-- `make_ud` is undone by the cast in `run()`. -/
@[simp] theorem toUInt32_makeUd (i : UInt32) : (makeUd i).toUInt32 = i := by
  simp [makeUd]

theorem makeUd_toNat (i : UInt32) : (makeUd i).toNat = i.toNat := by
  simp [makeUd]

theorem makeUd_injective {i j : UInt32} (same : makeUd i = makeUd j) : i = j := by
  have back := congrArg UInt64.toUInt32 same
  simpa using back

theorem makeUd_ne_sentinel (i : UInt32) : makeUd i ≠ kStopSentinel := by
  intro same
  have small := i.toNat_lt
  have large : kStopSentinel.toNat = 2 ^ 64 - 1 := rfl
  rw [← same, makeUd_toNat] at large
  omega

theorem makeUd_toUInt32 {ud : UInt64} (small : ud.toNat < 2 ^ 32) : makeUd ud.toUInt32 = ud := by
  apply UInt64.toNat_inj.mp
  rw [makeUd_toNat, UInt64.toNat_toUInt32, Nat.mod_eq_of_lt small]

/-! ### The worker and its ring -/

namespace Errno

def eintr : Int32 := 4
def eagain : Int32 := 11
def enodev : Int32 := 19
def einval : Int32 := 22
def enotconn : Int32 := 107

end Errno

/-- Why the loop was left. -/
inductive Exit where
  | stopped
  /-- ENOTCONN or ENODEV for a slot -/
  | gone (idx : UInt32)
  /-- any other error for a slot -/
  | fatal (idx : UInt32)
  | waitFailed
  /-- no entry for the reply even after a submit -/
  | sqFull (idx : UInt32)
  | submitFailed
  deriving DecidableEq

/-- Where `run()` is between two calls of liburing. -/
inductive Phase where
  | waiting
  /-- a request landed in the slot -/
  | handling (idx : UInt32)
  /-- -EINTR: about to get an entry for another REGISTER -/
  | rearming (idx : UInt32)
  /-- about to get an entry for the reply, for the second time if `retried` -/
  | committing (idx : UInt32) (retried : Bool)
  /-- the queue was full: about to submit and retry -/
  | flushing (idx : UInt32)
  /-- an entry is prepared, `io_uring_submit` is next -/
  | submitting (ignoreResult : Bool)
  | exited (why : Exit)
  deriving DecidableEq

/-- A slot's two buffers and its `Entry`. -/
structure Slot where
  buf : Memory
  scratch : Memory
  entry : Entry

/-- The worker, its ring and the kernel's side of it. The last three fields record
what the kernel has handed out and taken back: the commit ids of the delivered
requests in order, which of them each slot holds, and the commits that were consumed. -/
structure Ring (σ : Type) where
  sq : List Sqe
  kernel : List Sqe
  cq : List Cqe
  phase : Phase
  ec : Int32
  slots : UInt32 → Slot
  initDone : Bool
  daemon : σ
  delivered : List UInt64
  current : UInt32 → Option Nat
  committed : List (Nat × UInt64)

/-- What is fixed when the ring is set up; the queue has room for the stop poll. -/
structure RingConfig (σ : Type) where
  fs : Filesystem σ
  opts : SessionOptions
  payloadBytes : Nat
  depth : UInt32
  capacity : Nat
  room : depth.toNat + 1 ≤ capacity

namespace Ring

variable {σ : Type} (cfg : RingConfig σ)

/-- The request a consumed COMMIT_AND_FETCH answers: the one its slot was given last. -/
def commitOf (s : Ring σ) (q : Sqe) : Option (Nat × UInt64) :=
  match q.cmd with
  | .commitAndFetch id => (s.current q.userData.toUInt32).map fun n => (n, id)
  | .pollAdd | .register => none

/-- The kernel takes the first queued entry. -/
def consumeOne (s : Ring σ) : Ring σ :=
  match s.sq with
  | [] => s
  | q :: rest =>
    { s with
      sq := rest
      kernel := s.kernel ++ [q]
      committed := s.committed ++ (s.commitOf q).toList }

/-- A submit that consumes `n` entries. -/
def consume : Nat → Ring σ → Ring σ
  | 0, s => s
  | n + 1, s => consume n s.consumeOne

/-- What one consumed entry keeps, a submit keeps. -/
theorem consume_invariant (inv : Ring σ → Prop) (one : ∀ s, inv s → inv s.consumeOne) (n : Nat)
    (s : Ring σ) (initial : inv s) : inv (s.consume n) := by
  induction n generalizing s with
  | zero => exact initial
  | succ n ih => exact ih _ (one s initial)

@[simp] theorem consumeOne_phase (s : Ring σ) : s.consumeOne.phase = s.phase := by
  unfold consumeOne
  split <;> rfl

@[simp] theorem consume_phase (n : Nat) (s : Ring σ) : (s.consume n).phase = s.phase :=
  consume_invariant (·.phase = s.phase) (fun v same => (v.consumeOne_phase).trans same) n s rfl

/-- The commit id in a slot's `ring_ent_in_out`. -/
def commitIdIn (buf : Memory) : UInt64 :=
  (FuseUringEntInOut.codec.dec (buf.read ringEntOff FuseUringEntInOut.codec.size)).commitId

/-- The kernel writes a request into the slot of a completed command. -/
def deliver (s : Ring σ) (idx : UInt32) (contents : Memory) : Ring σ :=
  { s with
    slots := Function.update s.slots idx { s.slots idx with buf := contents }
    delivered := s.delivered ++ [commitIdIn contents]
    current := Function.update s.current idx (some s.delivered.length) }

/-- The kernel completes the entry `q` it held between `before` and `after`. -/
def complete (s : Ring σ) (before : List Sqe) (q : Sqe) (after : List Sqe) (res : Int32)
    (contents : Memory) : Ring σ :=
  let s := { s with kernel := before ++ after, cq := s.cq ++ [⟨q.userData, res⟩] }
  if q.cmd = .pollAdd ∨ res < 0 then s else s.deliver q.userData.toUInt32 contents

section Complete

variable (s : Ring σ) (before : List Sqe) (q : Sqe) (after : List Sqe) (res : Int32)
  (contents : Memory)

@[simp] theorem complete_sq : (s.complete before q after res contents).sq = s.sq := by
  unfold complete
  split <;> rfl

@[simp] theorem complete_kernel :
    (s.complete before q after res contents).kernel = before ++ after := by
  unfold complete
  split <;> rfl

@[simp] theorem complete_cq :
    (s.complete before q after res contents).cq = s.cq ++ [⟨q.userData, res⟩] := by
  unfold complete
  split <;> rfl

@[simp] theorem complete_phase : (s.complete before q after res contents).phase = s.phase := by
  unfold complete
  split <;> rfl

@[simp] theorem complete_committed :
    (s.complete before q after res contents).committed = s.committed := by
  unfold complete
  split <;> rfl

end Complete

/-- What `run()` decides about a completion: where it goes on, and the new `ec_`. -/
def afterCqe (depth : UInt32) (ec : Int32) (c : Cqe) : Phase × Int32 :=
  if c.userData = kStopSentinel then (.exited .stopped, ec)
  else
    let idx := c.userData.toUInt32
    -- The error is recorded, but the loop goes on.
    if depth ≤ idx then (.waiting, Errno.einval)
    else if c.res < 0 then
      if c.res = -Errno.enotconn ∨ c.res = -Errno.enodev then (.exited (.gone idx), ec)
      -- The slot gets another REGISTER.
      else if c.res = -Errno.eintr then (.rearming idx, ec)
      else (.exited (.fatal idx), -c.res)
    else (.handling idx, ec)

/-- A request is handled just for a successful completion of a slot in range. -/
theorem afterCqe_handling {depth : UInt32} {ec : Int32} {c : Cqe} {idx : UInt32}
    (handled : (afterCqe depth ec c).1 = .handling idx) :
    c.userData ≠ kStopSentinel ∧ c.userData.toUInt32 = idx ∧ ¬c.res < 0 := by
  grind [afterCqe]

theorem afterCqe_not_sqFull {depth : UInt32} {ec : Int32} {c : Cqe} (idx : UInt32) :
    (afterCqe depth ec c).1 ≠ .exited (.sqFull idx) := by
  grind [afterCqe]

/-- No completion leads past `handle_one`. -/
theorem afterCqe_replying {depth : UInt32} {ec : Int32} {c : Cqe} (idx : UInt32) :
    (∀ retried, (afterCqe depth ec c).1 ≠ .committing idx retried) ∧
      (afterCqe depth ec c).1 ≠ .flushing idx := by
  grind [afterCqe]

/-- The worker takes the first completion off the queue. -/
def take (s : Ring σ) (c : Cqe) (rest : List Cqe) : Ring σ :=
  { s with
    cq := rest
    phase := (afterCqe cfg.depth s.ec c).1
    ec := (afterCqe cfg.depth s.ec c).2 }

/-- The memory `handle_one` works on. -/
def worldOf (s : Ring σ) (idx : UInt32) : World σ where
  mem
    | .slot => (s.slots idx).buf
    | .scratch => (s.slots idx).scratch
  initDone := s.initDone
  fs := s.daemon

/-- `handle_one` on slot `idx`. -/
def handle (s : Ring σ) (idx : UInt32) : Ring σ :=
  let done := run (World.step cfg.fs)
    (handleOne cfg.opts cfg.payloadBytes (s.slots idx).entry) (s.worldOf idx)
  { s with
    slots := Function.update s.slots idx
      { buf := done.2.mem .slot, scratch := done.2.mem .scratch, entry := done.1.1 }
    initDone := done.2.initDone
    daemon := done.2.fs
    phase := .committing idx false }

def queue (s : Ring σ) (q : Sqe) (phase : Phase) : Ring σ :=
  { s with sq := s.sq ++ [q], phase := phase }

/-- The ring before the submit of `start()`: the stop poll and one REGISTER a slot. -/
def armed (daemon : σ) (initDone : Bool) : Ring σ where
  sq := prepPoll :: (List.range cfg.depth.toNat).map fun i => prepRegister (UInt32.ofNat i)
  kernel := []
  cq := []
  phase := .waiting
  ec := 0
  slots := fun _ => ⟨fun _ => 0, fun _ => 0, Entry.start cfg.payloadBytes⟩
  initDone := initDone
  daemon := daemon
  delivered := []
  current := fun _ => none
  committed := []

/-- The ring after `start()`, whose submit consumed some of the entries. -/
def start (daemon : σ) (initDone : Bool) (consumed : Nat) : Ring σ :=
  (armed cfg daemon initDone).consume consumed

end Ring

/-! ### The run -/

/-- What can happen next: the kernel completes an entry, another thread acts on the
daemon, or the worker's pending call returns. -/
inductive RingAction (σ : Type) where
  | complete (pos : Nat) (res : Int32) (contents : Memory)
  | interfere (daemon : σ) (initDone : Bool)
  | waitInterrupted
  | waitFails (rc : Int32)
  | waitReturns
  | handleOne
  | getSqe
  | getSqeNull
  | submit (n : Nat)
  | submitFails (rc : Int32)

def Ring.next {σ : Type} (cfg : RingConfig σ) (s : Ring σ) (a : RingAction σ) : Option (Ring σ) :=
  match a, s.phase with
  | .complete pos res contents, _ =>
    match s.kernel.drop pos with
    | [] => none
    | q :: after => some (s.complete (s.kernel.take pos) q after res contents)
  | .interfere daemon initDone, _ => some { s with daemon := daemon, initDone := initDone }
  | .waitInterrupted, .waiting => some s
  | .waitFails rc, .waiting =>
    if rc < 0 ∧ rc ≠ -Errno.eintr then some { s with phase := .exited .waitFailed, ec := -rc }
    else none
  | .waitReturns, .waiting =>
    match s.cq with
    | [] => none
    | c :: rest => some (s.take cfg c rest)
  | .handleOne, .handling idx => some (s.handle cfg idx)
  | .getSqe, .rearming idx => some (s.queue (prepRegister idx) (.submitting true))
  | .getSqe, .committing idx _ =>
    some (s.queue (prepCommitAndFetch idx (s.slots idx).entry.commitId) (.submitting false))
  | .getSqeNull, .rearming _ =>
    -- The slot is dropped: the loop goes on without it.
    if cfg.capacity ≤ s.sq.length then some { s with phase := .waiting } else none
  | .getSqeNull, .committing idx false =>
    if cfg.capacity ≤ s.sq.length then some { s with phase := .flushing idx } else none
  | .getSqeNull, .committing idx true =>
    if cfg.capacity ≤ s.sq.length then
      some { s with phase := .exited (.sqFull idx), ec := Errno.eagain }
    else none
  | .submit n, .submitting _ => some { s.consume n with phase := .waiting }
  | .submit n, .flushing idx => some { s.consume n with phase := .committing idx true }
  -- After a REGISTER the result of the submit is not looked at.
  | .submitFails _, .submitting true => some { s with phase := .waiting }
  | .submitFails rc, .submitting false =>
    some { s with phase := .exited .submitFailed, ec := -rc }
  -- Nor is it between the two attempts to get an entry.
  | .submitFails _, .flushing idx => some { s with phase := .committing idx true }
  | _, _ => none

/-! ### What a step can do -/

/-- Where the loop goes on after `io_uring_submit`. -/
inductive Phase.Submits : Phase → Phase → Prop where
  | done (ignoreResult : Bool) : Submits (.submitting ignoreResult) .waiting
  | failed : Submits (.submitting false) (.exited .submitFailed)
  | flushed (idx : UInt32) : Submits (.flushing idx) (.committing idx true)

/-- The token of the slot an entry is wanted for. -/
inductive Phase.WantsSqe : Phase → UInt32 → Prop where
  | rearming (idx : UInt32) : WantsSqe (.rearming idx) idx
  | committing (idx : UInt32) (retried : Bool) : WantsSqe (.committing idx retried) idx

/-- Where the loop goes on when there is no free entry. -/
inductive Phase.Misses : Phase → Phase → Prop where
  | dropped (idx : UInt32) : Misses (.rearming idx) .waiting
  | retries (idx : UInt32) : Misses (.committing idx false) (.flushing idx)
  | gaveUp (idx : UInt32) : Misses (.committing idx true) (.exited (.sqFull idx))

/-- The steps of the ring, told apart by their effect. -/
inductive Ring.Step {σ : Type} (cfg : RingConfig σ) (s : Ring σ) : Ring σ → Prop where
  | complete (before : List Sqe) (q : Sqe) (after : List Sqe) (res : Int32) (contents : Memory)
      (held : s.kernel = before ++ q :: after) : Step cfg s (s.complete before q after res contents)
  | interfere (daemon : σ) (initDone : Bool) :
      Step cfg s { s with daemon := daemon, initDone := initDone }
  | idle : Step cfg s s
  | leave (ec : Int32) (waits : s.phase = .waiting) :
      Step cfg s { s with phase := .exited .waitFailed, ec := ec }
  | take (c : Cqe) (rest : List Cqe) (waits : s.phase = .waiting) (first : s.cq = c :: rest) :
      Step cfg s (s.take cfg c rest)
  | handle (idx : UInt32) (landed : s.phase = .handling idx) : Step cfg s (s.handle cfg idx)
  | rearm (idx : UInt32) (wants : s.phase = .rearming idx) :
      Step cfg s (s.queue (prepRegister idx) (.submitting true))
  | commit (idx : UInt32) (retried : Bool) (wants : s.phase = .committing idx retried) :
      Step cfg s (s.queue (prepCommitAndFetch idx (s.slots idx).entry.commitId) (.submitting false))
  | stuck (idx : UInt32) (phase : Phase) (ec : Int32) (wants : s.phase.WantsSqe idx)
      (misses : s.phase.Misses phase) (full : cfg.capacity ≤ s.sq.length) :
      Step cfg s { s with phase := phase, ec := ec }
  | submit (n : Nat) (phase : Phase) (ec : Int32) (submits : s.phase.Submits phase) :
      Step cfg s { s.consume n with phase := phase, ec := ec }

/-- A null entry means that the queue is full while an entry is wanted. -/
theorem Ring.next_getSqeNull {σ : Type} {cfg : RingConfig σ} {s s' : Ring σ}
    (taken : s.next cfg .getSqeNull = some s') :
    ∃ idx phase ec, s.phase.WantsSqe idx ∧ s.phase.Misses phase ∧
      cfg.capacity ≤ s.sq.length ∧ s' = { s with phase := phase, ec := ec } := by
  cases phase : s.phase with
  | rearming idx =>
    simp only [next, phase, Option.ite_none_right_eq_some, Option.some.injEq] at taken
    obtain ⟨full, rfl⟩ := taken
    exact ⟨idx, _, _, .rearming idx, .dropped idx, full, rfl⟩
  | committing idx retried =>
    cases retried with
    | false =>
      simp only [next, phase, Option.ite_none_right_eq_some, Option.some.injEq] at taken
      obtain ⟨full, rfl⟩ := taken
      exact ⟨idx, _, _, .committing idx false, .retries idx, full, rfl⟩
    | true =>
      simp only [next, phase, Option.ite_none_right_eq_some, Option.some.injEq] at taken
      obtain ⟨full, rfl⟩ := taken
      exact ⟨idx, _, _, .committing idx true, .gaveUp idx, full, rfl⟩
  | _ => simp [next, phase] at taken

theorem Ring.next_step {σ : Type} {cfg : RingConfig σ} {s s' : Ring σ} {a : RingAction σ}
    (taken : s.next cfg a = some s') : Step cfg s s' := by
  cases a with
  | complete pos res contents =>
    cases held : s.kernel.drop pos with
    | nil => simp [next, held] at taken
    | cons q after =>
      simp only [next, held, Option.some.injEq] at taken
      subst taken
      refine .complete _ q after res contents ?_
      rw [← held, List.take_append_drop]
  | interfere daemon initDone =>
    cases taken
    exact .interfere daemon initDone
  | waitInterrupted =>
    cases phase : s.phase with
    | waiting =>
      simp only [next, phase, Option.some.injEq] at taken
      exact taken ▸ .idle
    | _ => simp [next, phase] at taken
  | waitFails rc =>
    cases phase : s.phase with
    | waiting =>
      simp only [next, phase] at taken
      split at taken
      · cases taken
        exact .leave _ phase
      · cases taken
    | _ => simp [next, phase] at taken
  | waitReturns =>
    cases phase : s.phase with
    | waiting =>
      cases queued : s.cq with
      | nil => simp [next, phase, queued] at taken
      | cons c rest =>
        simp only [next, phase, queued, Option.some.injEq] at taken
        exact taken ▸ .take c rest phase queued
    | _ => simp [next, phase] at taken
  | handleOne =>
    cases phase : s.phase with
    | handling idx =>
      simp only [next, phase, Option.some.injEq] at taken
      exact taken ▸ .handle idx phase
    | _ => simp [next, phase] at taken
  | getSqe =>
    cases phase : s.phase with
    | rearming idx =>
      simp only [next, phase, Option.some.injEq] at taken
      exact taken ▸ .rearm idx phase
    | committing idx retried =>
      simp only [next, phase, Option.some.injEq] at taken
      exact taken ▸ .commit idx retried phase
    | _ => simp [next, phase] at taken
  | getSqeNull =>
    obtain ⟨idx, phase, ec, wants, misses, full, rfl⟩ := next_getSqeNull taken
    exact .stuck idx phase ec wants misses full
  | submit n =>
    cases phase : s.phase with
    | submitting ignored =>
      simp only [next, phase, Option.some.injEq] at taken
      subst taken
      exact .submit n _ _ (phase ▸ .done ignored)
    | flushing idx =>
      simp only [next, phase, Option.some.injEq] at taken
      subst taken
      exact .submit n _ _ (phase ▸ .flushed idx)
    | _ => simp [next, phase] at taken
  | submitFails rc =>
    -- A failing submit is one that consumed nothing.
    cases phase : s.phase with
    | submitting ignored =>
      cases ignored with
      | true =>
        simp only [next, phase, Option.some.injEq] at taken
        subst taken
        exact .submit 0 _ s.ec (phase ▸ .done true)
      | false =>
        simp only [next, phase, Option.some.injEq] at taken
        subst taken
        exact .submit 0 _ _ (phase ▸ .failed)
    | flushing idx =>
      simp only [next, phase, Option.some.injEq] at taken
      subst taken
      exact .submit 0 _ s.ec (phase ▸ .flushed idx)
    | _ => simp [next, phase] at taken

/-- The runs of one worker after a successful `start()`. -/
def ringMachine {σ : Type} (cfg : RingConfig σ) : Machine (Ring σ) (RingAction σ) where
  initial s := ∃ daemon initDone consumed, s = Ring.start cfg daemon initDone consumed
  next := Ring.next cfg

end Fex
