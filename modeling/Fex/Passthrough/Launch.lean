import Fex.Session

/-!
# Starting the daemon in the background

Without `-f`, `main` forks. The parent reads from a pipe: a byte tells it that the mount is there,
the end of the pipe that it will not come. In the child a watchdog polls the mountpoint while the
main thread is in `Session::run`; the watchdog owns the only write end that stays open.

The child's session is a `Session`. `stat` finds another device at the mountpoint only while the
mount of the session is installed, since nobody else mounts there, and it may fail or miss it. The
steps of a session other than those of `run()` itself, among them the calls of `stop()` from the
signal handler, are possible at any time.
-/
namespace Fex

open Foundation

namespace Passthrough

/-- The parent behind `fork`. -/
inductive ParentPc where
  | closeWrite
  | read
  | exited (code : Nat)
  deriving DecidableEq

/-- The main thread of the child. -/
inductive ChildPc where
  | closeRead
  /-- the standard descriptors are redirected, the watchdog gets the write end -/
  | spawn
  | run
  | store
  | join
  | exited (code : Nat)
  deriving DecidableEq

/-- Why the watchdog left its loop. -/
inductive Verdict where
  | ready
  | ended
  | late
  deriving DecidableEq

/-- `readiness_watchdog`; `i` counts the rounds of its loop. -/
inductive WatchdogPc where
  | absent
  | check (i : Nat)
  | stat (i : Nat)
  | write
  | close (why : Verdict)
  | exited (why : Verdict)
  deriving DecidableEq

/-- `kMaxIters`. -/
def maxIters : Nat := 600

structure Launch where
  parent : ParentPc := .closeWrite
  child : ChildPc := .closeRead
  watchdog : WatchdogPc := .absent
  session : Session := {}
  done : Bool := false
  /-- the write ends of the two processes are open -/
  parentWrite : Bool := true
  childWrite : Bool := true
  /-- bytes in the pipe -/
  pipe : Nat := 0

inductive LaunchAction where
  | parent
  | child
  | watchdog (found : Bool)
  | session (a : SessionAction)
  deriving DecidableEq

namespace Launch

def parentNext (s : Launch) : Option Launch :=
  match s.parent with
  | .closeWrite => some { s with parentWrite := false, parent := .read }
  | .read =>
    if 0 < s.pipe then some { s with pipe := s.pipe - 1, parent := .exited 0 }
    -- `read` returns 0 when nobody can write any more, and blocks until then.
    else if s.parentWrite || s.childWrite then none
    else some { s with parent := .exited 1 }
  | .exited _ => none

def childNext (s : Launch) : Option Launch :=
  match s.child with
  | .closeRead => some { s with child := .spawn }
  | .spawn => some { s with watchdog := .check 0, child := .run }
  | .run => if s.session.main = .returned then some { s with child := .store } else none
  | .store => some { s with done := true, child := .join }
  | .join =>
    match s.watchdog with
    | .exited _ => some { s with child := .exited (if s.session.result.isSome then 1 else 0) }
    | _ => none
  | .exited _ => none

/-- The parent has not closed its read end; the child has, before the thread was born. -/
def readable (s : Launch) : Bool :=
  match s.parent with
  | .exited _ => false
  | _ => true

def watchdogNext (s : Launch) (found : Bool) : Option Launch :=
  match s.watchdog with
  | .absent | .exited _ => none
  | .check i =>
    if maxIters ≤ i then some { s with watchdog := .close .late }
    else if s.done then some { s with watchdog := .close .ended }
    else some { s with watchdog := .stat i }
  | .stat i =>
    if found then
      if s.session.mountInstalled then some { s with watchdog := .write } else none
    -- It sleeps before the next round.
    else some { s with watchdog := .check (i + 1) }
  | .write =>
    -- SIGPIPE is ignored, and so is the result of the `write`.
    some { s with pipe := if s.readable then s.pipe + 1 else s.pipe, watchdog := .close .ready }
  | .close why => some { s with childWrite := false, watchdog := .exited why }

/-- `run()` goes on only while the main thread is in it, and nothing does once the process is
gone. -/
def permits (s : Launch) (a : SessionAction) : Bool :=
  match s.child, a with
  | .exited _, _ => false
  | .run, _ => true
  | _, .main _ => false
  | _, _ => true

def next (nqueues : Nat) (s : Launch) : LaunchAction → Option Launch
  | .parent => s.parentNext
  | .child => s.childNext
  | .watchdog found => s.watchdogNext found
  | .session a =>
    if s.permits a then (s.session.next nqueues a).map fun session => { s with session }
    else none

end Launch

def launchMachine (nqueues : Nat) : Machine Launch LaunchAction where
  initial s := s = {}
  next := Launch.next nqueues

end Passthrough

end Fex
