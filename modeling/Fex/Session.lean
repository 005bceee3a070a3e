import Fex.RingWorker

/-!
# The session

`Session::run` and the threads it shares `Session::Impl` with: the mounter, the ring
workers and any number of callers of `stop()`. Each step is what one thread does
between two points at which another could be seen; a call that can fail has its outcome
as part of the action. A worker is followed as far as the session can tell: which call
it is in and why it left (`Ring.next_pc` connects this to the ring's own model).

Of the kernel it assumes that `fsconfig(CMD_CREATE)` sends INIT, LOOKUP_ROOT and STATX
one after the other to queues of its choice and returns while none of them is
outstanding or once the connection is closed, that the stop poll completes only after
the eventfd was written, and that a fetch fails with -ENOTCONN or -ENODEV only once the
connection is closed.
-/
namespace Fex

open Foundation

/-! ### Ring workers as the session sees them -/

inductive WorkerExit where
  /-- the stop poll completed -/
  | stopped
  /-- -ENOTCONN or -ENODEV -/
  | gone
  /-- with an error recorded in `ec_` -/
  | failed
  deriving DecidableEq

inductive WorkerPc where
  /-- `start()` succeeded; no thread yet -/
  | started
  /-- in `io_uring_wait_cqe` -/
  | waiting
  /-- in `handle_one` -/
  | handling
  /-- getting an entry or submitting it -/
  | committing
  | left (why : WorkerExit)
  deriving DecidableEq

structure Worker where
  pc : WorkerPc := .started
  /-- `ec_` is set -/
  ec : Bool := false
  deriving DecidableEq

/-- The worker's thread is in `run()`. -/
def WorkerPc.Running (pc : WorkerPc) : Prop := pc = .waiting ∨ pc = .handling ∨ pc = .committing

/-- The moves of a worker in `run()`. -/
inductive WorkerPc.Step : WorkerPc → WorkerPc → Prop where
  | takes : Step .waiting .handling
  | rearms : Step .waiting .committing
  | handles : Step .handling .committing
  | commits : Step .committing .waiting
  | leaves (why : WorkerExit) : Step .waiting (.left why)
  | fails : Step .committing (.left .failed)

def Exit.kind : Exit → WorkerExit
  | .stopped => .stopped
  | .gone _ => .gone
  | .fatal _ | .waitFailed | .sqFull _ | .submitFailed => .failed

def Phase.pc : Phase → WorkerPc
  | .waiting => .waiting
  | .handling _ => .handling
  | .rearming _ | .committing .. | .flushing _ | .submitting _ => .committing
  | .exited why => .left why.kind

/-- Whatever a completion makes the worker do next is one of its moves. -/
theorem afterCqe_pc (depth : UInt32) (ec : Int32) (c : Cqe) :
    (Ring.afterCqe depth ec c).1.pc = .waiting ∨
      WorkerPc.Step .waiting (Ring.afterCqe depth ec c).1.pc := by
  unfold Ring.afterCqe
  dsimp only
  split
  · exact .inr (.leaves .stopped)
  · split
    · exact .inl rfl
    · split
      · split
        · exact .inr (.leaves .gone)
        · split
          · exact .inr .rearms
          · exact .inr (.leaves .failed)
      · exact .inr .takes

/-- A step of the ring's model leaves its worker where it was or is one of its moves. -/
theorem Ring.next_pc {σ : Type} {cfg : RingConfig σ} {s s' : Ring σ} {a : RingAction σ}
    (taken : s.next cfg a = some s') :
    WorkerPc.Step s.phase.pc s'.phase.pc ∨ s'.phase.pc = s.phase.pc := by
  cases next_step taken with
  | complete before q after res contents held =>
    rw [complete_phase]
    exact .inr rfl
  | interfere | idle => exact .inr rfl
  | leave ec waits =>
    rw [waits]
    exact .inl (.leaves .failed)
  | take c rest waits first =>
    rw [waits]
    exact (afterCqe_pc cfg.depth s.ec c).symm
  | handle idx landed =>
    rw [landed]
    exact .inl .handles
  | rearm idx wants | commit idx retried wants =>
    rw [wants]
    exact .inr rfl
  | submit n phase ec submits =>
    dsimp only
    generalize s.phase = current at submits
    cases submits with
    | done ignored => exact .inl .commits
    | failed => exact .inl .fails
    | flushed idx => exact .inr rfl
  | stuck idx phase ec wants misses full =>
    dsimp only
    clear wants
    generalize s.phase = current at misses
    cases misses with
    | dropped idx => exact .inl .commits
    | retries idx => exact .inr rfl
    | gaveUp idx => exact .inl .fails

/-! ### State -/

/-- Why `run()` gives up, or what it reports in the end. -/
inductive RunError where
  | device
  | eventfd
  | mountOpen
  | workerStart
  | mount
  | worker
  deriving DecidableEq

/-- Which of its loops `run()` joins the workers in. -/
inductive Cause where
  | startFailed
  | mountFailed
  | stopRequested
  | initMissing
  | drained
  deriving DecidableEq

/-- Where the thread in `run()` is. -/
inductive MainPc where
  | acquireDev
  | makeEfd
  | mountOpen
  | startWorkers
  | launch (q : Nat)
  | spawnMounter
  | joinMounter
  | checkMount
  | checkStopping
  | checkInit
  /-- the three steps of a `stop()` of its own -/
  | stopStore (why : Cause)
  | stopCheck (why : Cause)
  | stopWrite (why : Cause)
  | joinWorkers (why : Cause) (q : Nat)
  | destroy
  /-- the vector of workers goes out of scope -/
  | teardown (q : Nat)
  /-- `UmountOnExit` -/
  | guardClose
  | guardUmount
  | returned
  deriving DecidableEq

/-- Where the mounter thread is. -/
inductive MounterPc where
  | unborn
  /-- in `fsconfig(CMD_CREATE)` -/
  | create
  | fsmount
  | moveMount
  /-- `mount_create_and_finish` has returned -/
  | finish
  | exited
  deriving DecidableEq

/-- A request of the handshake that was sent to a queue. -/
structure Sent where
  queue : Nat
  /-- its completion was taken by the queue's worker -/
  taken : Bool
  deriving DecidableEq

/-- What a run does that can be seen from outside. -/
inductive SessionEvent where
  | joined (q : Nat)
  | ringDown (q : Nat)
  | moved
  | devClosed
  | umounted
  | initSucceeded
  | destroyed
  deriving DecidableEq

/-- What only `run()`, the mounter and the callers of `stop()` change. -/
structure Control where
  main : MainPc := .acquireDev
  mounter : MounterPc := .unborn
  /-- `dev_fd` is open -/
  devOpen : Bool := false
  /-- the counter of `stop_efd`, once it exists -/
  stopEfd : Option Nat := none
  stopping : Bool := false
  mountInstalled : Bool := false
  /-- `mount_ec` is set -/
  mountEc : Bool := false
  /-- calls of `stop()` between the store and the check of `stop_efd` -/
  stored : Nat := 0
  /-- calls of `stop()` between that check and the write -/
  checked : Nat := 0
  deriving DecidableEq

structure Session extends Control where
  workers : List Worker := []
  initDone : Bool := false
  /-- the kernel's side: the connection, and how far `CMD_CREATE` has come -/
  connected : Bool := true
  answered : Nat := 0
  outstanding : Option Sent := none
  result : Option RunError := none
  log : List SessionEvent := []
  deriving DecidableEq

/-- The stop eventfd exists and has been written. -/
def Control.Written (s : Control) : Prop := ∃ count, s.stopEfd = some (count + 1)

instance (s : Control) : Decidable s.Written :=
  match found : s.stopEfd with
  | none => .isFalse fun ⟨_, is⟩ => by simp [found] at is
  | some 0 => .isFalse fun ⟨_, is⟩ => by simp [found] at is
  | some (count + 1) => .isTrue ⟨count, found⟩

namespace Session

/-! ### Session::run -/

/-- `return ec` from `run()`: the locals are destroyed next. -/
def leave (s : Session) (result : Option RunError) : Session :=
  { s with result := result, main := .teardown 0 }

def setMain (s : Session) (pc : MainPc) : Session := { s with main := pc }

/-- What follows the loop that joined the workers. -/
def afterJoin (s : Session) : Cause → Session
  | .startFailed => s.leave (some .workerStart)
  | .mountFailed => s.leave (some .mount)
  | .stopRequested | .initMissing => s.leave none
  | .drained => s.setMain .destroy

/-- `w->join()`: a thread that was never launched is not joinable. -/
def join (s : Session) (why : Cause) (q : Nat) : Option Session :=
  match s.workers[q]? with
  | none => some (s.afterJoin why)
  | some w =>
    match w.pc with
    | .started => some (s.setMain (.joinWorkers why (q + 1)))
    | .left _ =>
      some { s with main := .joinWorkers why (q + 1), log := s.log ++ [.joined q] }
    | .waiting | .handling | .committing => none

/-- The next step of the thread in `run()`, with `nqueues` workers to start. -/
def mainNext (nqueues : Nat) (s : Session) (ok : Bool) : Option Session :=
  match s.main with
  | .acquireDev =>
    if ok then some { s with devOpen := true, main := .makeEfd }
    else some (s.leave (some .device))
  | .makeEfd =>
    if ok then some { s with stopEfd := some 0, main := .mountOpen }
    else some (s.leave (some .eventfd))
  | .mountOpen => some (if ok then s.setMain .startWorkers else s.leave (some .mountOpen))
  | .startWorkers =>
    if s.workers.length < nqueues then
      -- A worker whose `start()` failed is destroyed before the loop is left.
      some (if ok then { s with workers := s.workers ++ [{}] }
        else s.setMain (.stopStore .startFailed))
    else some (s.setMain (.launch 0))
  | .launch q =>
    if q < s.workers.length then
      some { s with
        workers := s.workers.modify q fun w => { w with pc := .waiting }
        main := .launch (q + 1) }
    else some (s.setMain .spawnMounter)
  | .spawnMounter => some { s with mounter := .create, main := .joinMounter }
  | .joinMounter => if s.mounter = .exited then some (s.setMain .checkMount) else none
  | .checkMount => some (s.setMain (if s.mountEc then .stopStore .mountFailed else .checkStopping))
  | .checkStopping =>
    some (s.setMain (if s.stopping then .joinWorkers .stopRequested 0 else .checkInit))
  | .checkInit =>
    some (s.setMain (if s.initDone then .joinWorkers .drained 0 else .stopStore .initMissing))
  | .stopStore why => some { s with stopping := true, main := .stopCheck why }
  | .stopCheck why =>
    some (s.setMain (if s.stopEfd.isSome then .stopWrite why else .joinWorkers why 0))
  | .stopWrite why =>
    some { s with stopEfd := s.stopEfd.map (· + 1), main := .joinWorkers why 0 }
  | .joinWorkers why q => s.join why q
  | .destroy =>
    -- The first worker error is surfaced.
    some (leave { s with log := s.log ++ [.destroyed] }
      (if s.workers.any Worker.ec then some .worker else none))
  | .teardown q =>
    if q < s.workers.length then
      some { s with main := .teardown (q + 1), log := s.log ++ [.ringDown q] }
    else some (s.setMain .guardClose)
  | .guardClose =>
    if s.mountInstalled then
      some { s with
        devOpen := false
        connected := false
        main := .guardUmount
        log := s.log ++ [.devClosed] }
    else some (s.setMain .returned)
  | .guardUmount =>
    some { s with mountInstalled := false, main := .returned, log := s.log ++ [.umounted] }
  | .returned => none

/-! ### The mounter -/

/-- `mount_create_and_finish` returns an error. -/
def mountFails (s : Session) : Session := { s with mountEc := true, mounter := .finish }

def mounterNext (s : Session) (ok : Bool) : Option Session :=
  match s.mounter with
  | .unborn | .exited => none
  | .create =>
    if ok then
      if s.answered = 3 ∧ s.outstanding = none then some { s with mounter := .fsmount } else none
    else if s.outstanding = none ∨ s.connected = false then some s.mountFails else none
  | .fsmount => some (if ok then { s with mounter := .moveMount } else s.mountFails)
  | .moveMount =>
    some (if ok then
        { s with mounter := .finish, mountInstalled := true, log := s.log ++ [.moved] }
      else s.mountFails)
  | .finish => some { s with stopping := s.stopping || s.mountEc, mounter := .exited }

/-! ### Workers, the kernel and callers of stop() -/

/-- Worker `q` moves from `source` to `target`, with an error in its `ec_` if it `fails`. -/
def move (s : Session) (q : Nat) (source target : WorkerPc) (fails : Bool := false) :
    Option Session :=
  match s.workers[q]? with
  | none => none
  | some w =>
    if w.pc = source then
      some { s with workers := s.workers.set q { pc := target, ec := w.ec || fails } }
    else none

end Session

/-- How `handle_init` ends. -/
inductive InitOutcome where
  /-- before `fs->init` was called -/
  | refused
  | failed
  /-- `fs->init` succeeded, but for another major version -/
  | mismatch
  | accepted
  deriving DecidableEq

inductive SessionAction where
  | main (ok : Bool)
  | mounter (ok : Bool)
  /-- the kernel sends the next request of the handshake -/
  | send (q : Nat)
  /-- worker `q` takes that request -/
  | deliver (q : Nat)
  /-- worker `q` takes another request, or re-arms a slot -/
  | take (q : Nat)
  | rearm (q : Nat)
  /-- a completion for an unknown slot -/
  | badIndex (q : Nat)
  | handle (q : Nat) (outcome : InitOutcome)
  | commit (q : Nat)
  | exit (q : Nat) (why : WorkerExit)
  | stopStore
  | stopCheck
  | stopWrite
  /-- the connection is closed or aborted from outside -/
  | disconnect
  deriving DecidableEq

namespace Session

/-- `handle_init` on the INIT of the handshake. -/
def handleInit (s : Session) : InitOutcome → Session
  | .refused | .failed => s
  | .mismatch => { s with log := s.log ++ [.initSucceeded] }
  | .accepted => { s with initDone := true, log := s.log ++ [.initSucceeded] }

/-- `handle_one`, which for the first request of the handshake is `handle_init`. -/
def handled (s : Session) (q : Nat) (outcome : InitOutcome) : Session :=
  if s.outstanding = some ⟨q, true⟩ ∧ s.answered = 0 then s.handleInit outcome else s

/-- The reply of worker `q` reached the kernel. -/
def committed (s : Session) (q : Nat) : Session :=
  if s.outstanding = some ⟨q, true⟩ then
    { s with outstanding := none, answered := s.answered + 1 }
  else s

/-- Worker `q` leaves its loop. An error is met while waiting or while submitting. -/
def exitNext (s : Session) (q : Nat) : WorkerExit → Option Session
  | .stopped => if s.Written then s.move q .waiting (.left .stopped) else none
  | .gone => if s.connected then none else s.move q .waiting (.left .gone)
  | .failed =>
    (s.move q .waiting (.left .failed) true).or (s.move q .committing (.left .failed) true)

def next (nqueues : Nat) (s : Session) : SessionAction → Option Session
  | .main ok => s.mainNext nqueues ok
  | .mounter ok => s.mounterNext ok
  | .send q =>
    if s.mounter = .create ∧ s.connected ∧ s.outstanding = none ∧ s.answered < 3 ∧
        q < s.workers.length then some { s with outstanding := some ⟨q, false⟩ }
    else none
  | .deliver q =>
    if s.outstanding = some ⟨q, false⟩ then
      (s.move q .waiting .handling).map fun s => { s with outstanding := some ⟨q, true⟩ }
    else none
  | .take q => s.move q .waiting .handling
  | .rearm q => s.move q .waiting .committing
  | .badIndex q => s.move q .waiting .waiting true
  | .handle q outcome => (s.move q .handling .committing).map (·.handled q outcome)
  | .commit q => (s.move q .committing .waiting).map (·.committed q)
  | .exit q why => s.exitNext q why
  | .stopStore => some { s with stopping := true, stored := s.stored + 1 }
  | .stopCheck =>
    if s.stored = 0 then none
    else if s.stopEfd.isSome then
      some { s with stored := s.stored - 1, checked := s.checked + 1 }
    else some { s with stored := s.stored - 1 }
  | .stopWrite =>
    if s.checked = 0 then none
    else some { s with checked := s.checked - 1, stopEfd := s.stopEfd.map (· + 1) }
  | .disconnect => some { s with connected := false }

end Session

/-- The number of workers: as asked for, or one for each hardware thread up to 32. -/
def nqueues (uringQueues hardwareConcurrency : Nat) : Nat :=
  if uringQueues = 0 then
    min (max (if hardwareConcurrency = 0 then 4 else hardwareConcurrency) 1) 32
  else uringQueues

theorem nqueues_pos (uringQueues hardwareConcurrency : Nat) :
    0 < nqueues uringQueues hardwareConcurrency := by
  unfold nqueues
  split <;> omega

/-- One run of `Session::run` on a fresh session with the given number of workers. -/
def sessionMachine (nqueues : Nat) : Machine Session SessionAction where
  initial s := s = {}
  next := Session.next nqueues

end Fex
