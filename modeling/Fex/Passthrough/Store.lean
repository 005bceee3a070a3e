import Mathlib.Logic.Function.Basic
import Fex.Foundation.Interleaving
import Fex.Passthrough.Code

/-!
# The passthrough daemon among its workers

What the workers of the daemon share: the `Inode` objects with the number of their `shared_ptr`s,
the open directory streams, the tables that refer to them, and the system. Here descriptors are
closed: when the last `shared_ptr` of an object ends, when an open file or directory is erased,
and when a callback closes its own.

A `Kernel` is a system that says which open file each descriptor of the process refers to. A call
that opens one returns a number that was free; no other call but `close` changes what the numbers
refer to.
-/
namespace Fex

open Foundation

namespace Passthrough

variable {φ ω : Type}

structure Kernel (φ ω : Type) extends System ω where
  close : Int32 → ω → ω
  file : ω → Int32 → Option φ
  file_close : ∀ fd w, file (close fd w) = Function.update (file w) fd none
  file_opened : ∀ (c : OpenCall) w fd, (c.run toSystem w).1 = .ok fd →
    file w fd = none ∧ ∃ f, file (c.run toSystem w).2 = Function.update (file w) fd (some f)
  file_unopened : ∀ (c : OpenCall) w e, (c.run toSystem w).1 = .error e →
    file (c.run toSystem w).2 = file w
  file_sys : ∀ (c : SysCall) w, file (c.run toSystem w).2 = file w
  file_fdopendir : ∀ fd w, file (fdopendir fd w).2 = file w

/-- An `Inode` on the heap; `refs` is the use count of its `shared_ptr`s. -/
structure InodeObj where
  pathFd : Int32
  nlookup : UInt64
  refs : Nat

/-- A `DIR` on the heap. -/
structure DirObj where
  fd : Int32
  stream : DirStream

structure Store (ω : Type) where
  /-- the heap, and the next address -/
  inodes : Ptr → Option InodeObj
  streams : Ptr → Option DirObj
  next : Ptr
  /-- the tables -/
  map : NodeId → Option Ptr
  files : FileHandle → Option Int32
  fileId : UInt64
  dirs : FileHandle → Option Ptr
  dirId : UInt64
  system : ω

namespace Store

variable (k : Kernel φ ω) (s : Store ω)

/-- The daemon as `main` starts it on a backing directory. -/
def start (backing : Int32) (system : ω) : Store ω where
  inodes := Function.update (fun _ => none) 0 (some { pathFd := backing, nlookup := 1, refs := 1 })
  streams _ := none
  next := 1
  map := Function.update (fun _ => none) NodeId.root (some 0)
  files _ := none
  fileId := 0
  dirs _ := none
  dirId := 0
  system := system

/-- One `shared_ptr` of an object ends; the last one destroys it. -/
def unref (p : Ptr) : Store ω :=
  match s.inodes p with
  | none => s
  | some o =>
    if o.refs ≤ 1 then
      { s with
        inodes := Function.update s.inodes p none
        system := k.close o.pathFd s.system }
    else { s with inodes := Function.update s.inodes p (some { o with refs := o.refs - 1 }) }

/-- `get` copies the `shared_ptr` of the table. -/
def get (n : NodeId) : Option Ref × Store ω :=
  match s.map n with
  | none => (none, s)
  | some p =>
    match s.inodes p with
    | none => (none, s)
    | some o =>
      (some ⟨p, o.pathFd⟩,
        { s with inodes := Function.update s.inodes p (some { o with refs := o.refs + 1 }) })

def insert (fd : Int32) (stIno : UInt64) : Bool × Store ω :=
  match s.map stIno with
  | none =>
    (true, { s with
      inodes := Function.update s.inodes s.next (some { pathFd := fd, nlookup := 1, refs := 1 })
      map := Function.update s.map stIno (some s.next)
      next := s.next + 1 })
  | some p =>
    match s.inodes p with
    | none => (false, s)
    | some o =>
      (false, { s with
        inodes := Function.update s.inodes p (some { o with nlookup := o.nlookup + 1 }) })

def forgetLocked (key : NodeId) (n : UInt64) : Store ω :=
  match s.map key with
  | none => s
  | some p =>
    match s.inodes p with
    | none => s
    | some o =>
      let nl := if n ≥ o.nlookup then 0 else o.nlookup - n
      let counted :=
        { s with inodes := Function.update s.inodes p (some { o with nlookup := nl }) }
      if nl = 0 then unref k { counted with map := Function.update s.map key none } p
      else counted

def forget (n : NodeId) (nlookup : UInt64) : Store ω :=
  if n = NodeId.root then s else s.forgetLocked k n nlookup

def forgetMany (s : Store ω) : List (NodeId × UInt64) → Store ω
  | [] => s
  | (n, nlookup) :: items => forgetMany (s.forget k n nlookup) items

def fileFd (fh : FileHandle) : Option Int32 := if fh = 0 then none else s.files fh

/-- `++file_id_` and `emplace`. -/
def addFile (fd : Int32) : (FileHandle × Bool) × Store ω :=
  let fh := s.fileId + 1
  match s.files fh with
  | none => ((fh, true),
      { s with fileId := fh, files := Function.update s.files fh (some fd) })
  | some _ => ((fh, false), { s with fileId := fh })

def eraseFile (fh : FileHandle) : Store ω :=
  match s.files fh with
  | none => s
  | some fd =>
    { s with files := Function.update s.files fh none, system := k.close fd s.system }

def fdopendir (fd : Int32) : Except Errc DirPtr × Store ω :=
  match k.fdopendir fd s.system with
  | (.error e, w) => (.error e, { s with system := w })
  | (.ok dir, w) =>
    (.ok ⟨s.next, dir⟩, { s with
      streams := Function.update s.streams s.next (some { fd, stream := { dir } })
      next := s.next + 1
      system := w })

def addDir (d : DirPtr) : FileHandle × Store ω :=
  let fh := s.dirId + 1
  (fh, { s with dirId := fh, dirs := Function.update s.dirs fh (some d.ptr) })

def eraseDir (fh : FileHandle) : Store ω :=
  match s.dirs fh with
  | none => s
  | some p =>
    match s.streams p with
    | none => s
    | some d =>
      { s with
        streams := Function.update s.streams p none
        dirs := Function.update s.dirs fh none
        system := k.close d.fd s.system }

def walk (p : Ptr) (off : UInt64) (writer : DirentWriter) :
    (Except Errc Unit × DirentWriter) × Store ω :=
  match s.streams p with
  | none => ((.ok (), writer), s)
  | some d =>
    let filled := (readdirLoop (d.stream.seekdir off) off).fill writer
    ((filled.1.1, filled.2),
      { s with streams := Function.update s.streams p (some { d with stream := filled.1.2 }) })

/-- One step of a worker. -/
def step : (op : DaemonOp) → Store ω → op.Answer × Store ω
  | .get n, s => s.get n
  | .drop r, s => ((), s.unref k r.ptr)
  | .insert fd stIno, s => s.insert fd stIno
  | .forget n nlookup, s => ((), s.forget k n nlookup)
  | .forgetMany items, s => ((), s.forgetMany k items)
  | .opens c, s =>
    ((c.run k.toSystem s.system).1, { s with system := (c.run k.toSystem s.system).2 })
  | .sys c, s =>
    ((c.run k.toSystem s.system).1, { s with system := (c.run k.toSystem s.system).2 })
  | .close fd, s => ((), { s with system := k.close fd s.system })
  | .fileFd fh, s => (s.fileFd fh, s)
  | .addFile fd, s => s.addFile fd
  | .eraseFile fh, s => ((), s.eraseFile k fh)
  | .fdopendir fd, s => s.fdopendir k fd
  | .addDir d, s => s.addDir d
  | .findDir fh, s => (s.dirs fh, s)
  | .eraseDir fh, s => ((), s.eraseDir k fh)
  | .walk p off writer, s => s.walk p off writer

end Store

/-- For each number a worker was given, the file it referred to then. No callback reads this. -/
abbrev Known (φ : Type) := Int32 → Option φ

/-- The descriptor a worker gets from a call or a table. -/
def DaemonOp.learns : (op : DaemonOp) → op.Answer → Option Int32
  | .get _, some r => some r.fd
  | .opens _, .ok fd => some fd
  | .fileFd _, answer => answer
  | _, _ => none

def Kernel.learn (k : Kernel φ ω) (op : DaemonOp) (answer : op.Answer) (w : ω) (m : Known φ) :
    Known φ :=
  match op.learns answer with
  | none => m
  | some fd => Function.update m fd (k.file w fd)

def Store.observed (k : Kernel φ ω) (op : DaemonOp) (w : Known φ × Store ω) :
    op.Answer × (Known φ × Store ω) :=
  let r := Store.step k op w.2
  (r.1, (k.learn op r.1 r.2.system w.1, r.2))

abbrev DaemonPool (ι φ ω : Type) :=
  Pool ι DaemonOp DaemonOp.Answer (Σ cb : Callback, cb.Answer) (Known φ) (Store ω) Callback

/-- The callbacks of a daemon's workers, each of which may be interrupted after any step. -/
def daemonWorkers {ι : Type} [DecidableEq ι] (k : Kernel φ ω) (start : Store ω) :
    Machine (DaemonPool ι φ ω) (PoolAction ι Callback) :=
  Pool.machine (Store.observed k) (fun cb => ((⟨cb, ·⟩) <$> Code.callback cb, fun _ => none)) id
    start

end Passthrough

end Fex
