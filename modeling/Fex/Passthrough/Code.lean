import Fex.Passthrough.Daemon

/-!
# The callbacks of the passthrough daemon, step by step

The same callbacks as in `Daemon`, as the programs a worker runs: each step is one system call,
one method of the inode table under its lock, or one access to the tables of open files and
directories under theirs, and what the destructors of local variables do is a step as well. A
`shared_ptr<Inode>` is taken by `get` and given back by `drop`; a descriptor the callback owns is
moved into a table or closed. The daemon of `Daemon` is what these programs do under an
environment in which nothing is closed (`aloneStep`).

The calls one READDIR makes on its directory stream are one step.
-/
namespace Fex

open Foundation

namespace Passthrough

/-! ### Steps -/

abbrev Ptr := Nat

/-- A `shared_ptr<Inode>`: the object, and its `path_fd`, which is set once. -/
structure Ref where
  ptr : Ptr
  fd : Int32
  deriving DecidableEq

/-- A `DIR*` that `fdopendir` returned. -/
structure DirPtr where
  ptr : Ptr
  dir : Directory

/-- The system calls that return a descriptor. -/
inductive OpenCall where
  | openat (dir : Int32) (name : Bytes)
  | openTmpfile (dir : Int32) (mode : UInt16)
  | openProc (fd : Int32) (flags : UInt32)

/-- The others that name one. -/
inductive SysCall where
  | fstatat (fd : Int32)
  | mknodat (dir : Int32) (name : Bytes) (mode : UInt16) (dev : UInt32 × UInt32)
  | mkdirat (dir : Int32) (name : Bytes) (mode : UInt16)
  | symlinkat (target : Bytes) (dir : Int32) (name : Bytes)
  | fchownat (dir : Int32) (name : Bytes) (uid gid : UInt32)
  | unlinkat (dir : Int32) (name : Bytes) (removeDir : Bool)
  | renameat2 (olddir : Int32) (oldname : Bytes) (newdir : Int32) (newname : Bytes)
      (flags : UInt32)
  | linkat (src dst : Int32) (name : Bytes)
  | readlinkat (fd : Int32)
  | pread (fd : Int32) (span : Bytes) (offset : UInt64)
  | pwrite (fd : Int32) (data : Bytes) (offset : UInt64)
  | fstatvfs (fd : Int32)
  | fallocate (fd : Int32) (mode : UInt32) (offset length : UInt64)
  | chmod (file : FileRef) (mode : UInt16)
  | chown (file : FileRef) (uid gid : UInt32)
  | truncate (file : FileRef) (size : UInt64)
  | utimens (file : FileRef) (atime mtime : Option Timespec)
  | lgetxattr (fd : Int32) (name span : Bytes)
  | lsetxattr (fd : Int32) (name value : Bytes) (flags : UInt32)
  | llistxattr (fd : Int32) (span : Bytes)
  | lremovexattr (fd : Int32) (name : Bytes)

@[reducible] def SysCall.Answer : SysCall → Type
  | fstatat _ => Except Errc StatxOut
  | readlinkat _ => Except Errc Bytes
  | fstatvfs _ => Except Errc StatfsOut
  | pwrite .. => Except Errc Nat
  | pread _ span _ | lgetxattr _ _ span | llistxattr _ span => Filled span
  | mknodat .. | mkdirat .. | symlinkat .. | fchownat .. | unlinkat .. | renameat2 .. | linkat ..
  | fallocate .. | chmod .. | chown .. | truncate .. | utimens .. | lsetxattr ..
  | lremovexattr .. => Except Errc Unit

/-- The descriptor a file is named by, openly or in its path. -/
def fileNumber : FileRef → Int32
  | .fd n | .proc n => n

/-- The descriptors a call names. -/
def OpenCall.uses : OpenCall → List Int32
  | openat dir _ | openTmpfile dir _ => [dir]
  | openProc fd _ => [fd]

def SysCall.uses : SysCall → List Int32
  | fstatat fd | readlinkat fd | pread fd _ _ | pwrite fd _ _ | fstatvfs fd | fallocate fd _ _ _
  | lgetxattr fd _ _ | lsetxattr fd _ _ _ | llistxattr fd _ | lremovexattr fd _ => [fd]
  | mknodat dir _ _ _ | mkdirat dir _ _ | symlinkat _ dir _ | fchownat dir _ _ _
  | unlinkat dir _ _ => [dir]
  | renameat2 olddir _ newdir _ _ => [olddir, newdir]
  | linkat src dst _ => [src, dst]
  | chmod file _ | chown file _ _ | truncate file _ | utimens file _ _ => [fileNumber file]

inductive DaemonOp where
  /-- `table_.get`, which copies the `shared_ptr` -/
  | get (n : NodeId)
  /-- the end of a `shared_ptr<Inode>` -/
  | drop (r : Ref)
  /-- `table_.insert`; the answer says whether it took the descriptor over -/
  | insert (fd : Int32) (stIno : UInt64)
  /-- `table_.forget` -/
  | forget (n : NodeId) (nlookup : UInt64)
  /-- `table_.forget_many` -/
  | forgetMany (items : List (NodeId × UInt64))
  | opens (c : OpenCall)
  | sys (c : SysCall)
  | close (fd : Int32)
  /-- `file_fd` -/
  | fileFd (fh : FileHandle)
  /-- `files_.emplace` under the next handle; the answer says whether that was free -/
  | addFile (fd : Int32)
  | eraseFile (fh : FileHandle)
  /-- `fdopendir`, which takes the descriptor over unless it fails -/
  | fdopendir (fd : Int32)
  | addDir (d : DirPtr)
  /-- `dirs_.find` -/
  | findDir (fh : FileHandle)
  /-- `closedir` and `dirs_.erase`, if there is such a handle -/
  | eraseDir (fh : FileHandle)
  /-- the loop of `readdir` -/
  | walk (d : Ptr) (off : UInt64) (writer : DirentWriter)

@[reducible] def DaemonOp.Answer : DaemonOp → Type
  | get _ => Option Ref
  | opens _ => Except Errc Int32
  | sys c => c.Answer
  | insert .. => Bool
  | fileFd _ => Option Int32
  | addFile _ => FileHandle × Bool
  | fdopendir _ => Except Errc DirPtr
  | addDir _ => FileHandle
  | findDir _ => Option Ptr
  | walk .. => Except Errc Unit × DirentWriter
  | drop _ | forget .. | forgetMany _ | close _ | eraseFile _ | eraseDir _ => Unit

/-- What a worker runs. -/
abbrev Code := Program DaemonOp DaemonOp.Answer

def perform (op : DaemonOp) : Code op.Answer := Program.ask op

/-- Go on unless the call failed; `wrap_errno` if it did. -/
def andThen {α β : Type} (first : Code (Except Errc α)) (rest : α → Code (Except Errc β)) :
    Code (Except Errc β) := do
  match ← first with
  | .error e => return .error e
  | .ok a => rest a

/-- A scope that holds the inode of `n`, or fails with `stale`. -/
def onInode {β : Type} (n : NodeId) (fail : Errc → β) (body : Ref → Code β) : Code β := do
  match ← perform (.get n) with
  | none => return fail Errc.staleFileHandle
  | some r =>
    let answer ← body r
    perform (.drop r)
    return answer

namespace Code

/-! ### Names and inodes -/

/-- `table_.insert`: an entry that exists keeps its descriptor, and the new one is closed. -/
def insert (fd : Int32) (stIno : UInt64) : Code (Except Errc EntryOut) := do
  let taken ← perform (.insert fd stIno)
  unless taken do perform (.close fd)
  return .ok { nodeid := stIno, entryValid := entryTimeout }

/-- A descriptor of a child becomes its inode. -/
def enter (cfd : Int32) : Code (Except Errc EntryOut) := do
  match ← perform (.sys (.fstatat cfd)) with
  | .error e =>
    perform (.close cfd)
    return .error e
  | .ok st => insert cfd st.ino

def lookupx (parent : NodeId) (name : Bytes) : Code (Except Errc EntryOut) :=
  onInode parent .error fun p => do
    match ← perform (.opens (.openat p.fd (cStr name))) with
    | .error e =>
      return if e = Errc.noSuchFileOrDirectory then .ok { negative := true } else .error e
    | .ok cfd => enter cfd

def create (dir : Int32) (obj : MkobjxIn) : Code (Except Errc Unit) :=
  let mode := obj.stat.mode
  let name := cStr obj.name
  match kind mode with
  | 0x8000 => perform (.sys (.mknodat dir name mode (0, 0)))
  | 0x4000 => perform (.sys (.mkdirat dir name (mode &&& 0x0fff)))
  | 0xa000 => perform (.sys (.symlinkat (cStr obj.linkTarget) dir name))
  | 0x2000 | 0x6000 | 0x1000 | 0xc000 =>
    perform (.sys (.mknodat dir name mode (obj.stat.rdevMajor, obj.stat.rdevMinor)))
  | _ => return .error Errc.invalidArgument

/-- `fchownat` of a new object, which may be refused. -/
def giveAway (dir : Int32) (obj : MkobjxIn) : Code (Except Errc Unit) :=
  if kind obj.stat.mode == 0xa000 then return .ok ()
  else do
    match ← perform (.sys (.fchownat dir (cStr obj.name) obj.stat.uid obj.stat.gid)) with
    | .error e => return if e = Errc.operationNotPermitted then .ok () else .error e
    | .ok () => return .ok ()

/-- A file without a name: its `O_PATH` descriptor is opened through the first one. -/
def tmpfile (dir : Int32) (mode : UInt16) : Code (Except Errc EntryOut) :=
  andThen (perform (.opens (.openTmpfile dir (mode &&& 0x0fff)))) fun fd => do
    match ← perform (.sys (.fstatat fd)) with
    | .error e =>
      perform (.close fd)
      return .error e
    | .ok st =>
      let pfd ← perform (.opens (.openProc fd 0x200000))
      perform (.close fd)
      match pfd with
      | .error e => return .error e
      | .ok pfd => insert pfd st.ino

def mkobjx (parent : NodeId) (obj : MkobjxIn) : Code (Except Errc EntryOut) :=
  onInode parent .error fun p =>
    if obj.flags &&& kMkobjxTmpfile ≠ 0 then tmpfile p.fd obj.stat.mode
    else
      andThen (create p.fd obj) fun _ =>
      andThen (giveAway p.fd obj) fun _ =>
      andThen (perform (.opens (.openat p.fd (cStr obj.name)))) enter

def unlink (parent : NodeId) (name : Bytes) (removeDir : Bool) : Code (Except Errc Unit) :=
  onInode parent .error fun p => perform (.sys (.unlinkat p.fd (cStr name) removeDir))

/-- Two inodes are looked up before either of them is missed. -/
def onInodes {β : Type} (m n : NodeId) (fail : Errc → β) (body : Ref → Ref → Code β) :
    Code β := do
  match ← perform (.get m) with
  | none =>
    onInode n fail fun _ => return fail Errc.staleFileHandle
  | some r =>
    let answer ← onInode n fail (body r)
    perform (.drop r)
    return answer

def rename (olddir : NodeId) (oldname : Bytes) (newdir : NodeId) (newname : Bytes)
    (flags : UInt32) : Code (Except Errc Unit) :=
  onInodes olddir newdir .error fun o n =>
    perform (.sys (.renameat2 o.fd (cStr oldname) n.fd (cStr newname) flags))

def link (oldnodeid newparent : NodeId) (newname : Bytes) : Code (Except Errc Unit) :=
  onInodes oldnodeid newparent .error fun src dst =>
    perform (.sys (.linkat src.fd dst.fd (cStr newname)))

def readlink (n : NodeId) : Code (Except Errc Bytes) :=
  onInode n .error fun i => perform (.sys (.readlinkat i.fd))

/-! ### Attributes -/

def statx (n : NodeId) : Code (Except Errc StatxOut) :=
  onInode n .error fun i => perform (.sys (.fstatat i.fd))

/-- A call that is made only if the mask asks for it. -/
def optional (asked : Bool) (call : Code (Except Errc Unit)) : Code (Except Errc Unit) :=
  if asked then call else return .ok ()

/-- The changes of `setstatx`, on the open file or on a path in `/proc`. -/
def change (file : FileRef) (attrs : SetStatxIn) : Code (Except Errc Unit) :=
  andThen (optional (attrs.mask &&& StatxMask.mode ≠ 0)
    (perform (.sys (.chmod file attrs.mode)))) fun _ =>
  andThen (optional (attrs.mask &&& (StatxMask.uid ||| StatxMask.gid) ≠ 0)
    (perform (.sys (.chown file
      (if attrs.mask &&& StatxMask.uid ≠ 0 then attrs.uid else 0xffffffff)
      (if attrs.mask &&& StatxMask.gid ≠ 0 then attrs.gid else 0xffffffff))))) fun _ =>
  andThen (optional (attrs.mask &&& StatxMask.size ≠ 0)
    (perform (.sys (.truncate file attrs.size)))) fun _ =>
  optional (attrs.mask &&& (StatxMask.atime ||| StatxMask.mtime) ≠ 0)
    (perform (.sys (.utimens file
      (if attrs.mask &&& StatxMask.atime ≠ 0 then some attrs.atime else none)
      (if attrs.mask &&& StatxMask.mtime ≠ 0 then some attrs.mtime else none))))

def setstatx (n : NodeId) (fh : FileHandle) (attrs : SetStatxIn) :
    Code (Except Errc StatxOut) := do
  match ← perform (.fileFd fh) with
  | some fd => andThen (change (.fd fd) attrs) fun _ => statx n
  | none =>
    -- The `shared_ptr` is local to the block that prints the path: only the number stays.
    andThen (onInode n .error fun i => return .ok i.fd) fun fd =>
    andThen (change (.proc fd) attrs) fun _ => statx n

def statfs (n : NodeId) : Code (Except Errc StatfsOut) :=
  onInode n .error fun i => perform (.sys (.fstatvfs i.fd))

/-! ### Files -/

def openFile (n : NodeId) (flags : UInt32) : Code (Except Errc OpenOut) :=
  onInode n .error fun i =>
    andThen (perform (.opens (.openProc i.fd (flags &&& persistentFlags)))) fun fd => do
      let (fh, free) ← perform (.addFile fd)
      -- `emplace` drops the new `Fd` if the handle is taken.
      unless free do perform (.close fd)
      return .ok { fh }

def release (fh : FileHandle) : Code (Except Errc Unit) := do
  perform (.eraseFile fh)
  return .ok ()

/-- `io_fd`: the open file, or the inode opened for this one call and closed behind it. -/
def onFile {β : Type} (n : NodeId) (fh : FileHandle) (mode : UInt32) (fail : Errc → β)
    (body : Int32 → Code β) : Code β := do
  match ← perform (.fileFd fh) with
  | some fd => body fd
  | none =>
    match ← onInode n .error fun i => perform (.opens (.openProc i.fd mode)) with
    | .error e => return fail e
    | .ok t =>
      let answer ← body t
      perform (.close t)
      return answer

def read (n : NodeId) (fh : FileHandle) (offset : UInt64) (span : Bytes) :
    Code (Filled span) :=
  onFile n fh 0 (fun e => (.error e, .of span)) fun fd => perform (.sys (.pread fd span offset))

def write (n : NodeId) (fh : FileHandle) (offset : UInt64) (data : Bytes) :
    Code (Except Errc Nat) :=
  onFile n fh 1 .error fun fd => perform (.sys (.pwrite fd data offset))

def fallocate (n : NodeId) (fh : FileHandle) (mode : UInt32) (offset length : UInt64) :
    Code (Except Errc Unit) :=
  onFile n fh 1 .error fun fd => perform (.sys (.fallocate fd mode offset length))

/-! ### Directories -/

def opendir (n : NodeId) : Code (Except Errc OpenOut) :=
  onInode n .error fun i =>
    andThen (perform (.opens (.openProc i.fd 0x10000))) fun fd => do
      match ← perform (.fdopendir fd) with
      | .error e =>
        perform (.close fd)
        return .error e
      | .ok d =>
        let fh ← perform (.addDir d)
        return .ok { fh }

def releasedir (fh : FileHandle) : Code (Except Errc Unit) := do
  perform (.eraseDir fh)
  return .ok ()

def readdir (fh : FileHandle) (offset : UInt64) (writer : DirentWriter) :
    Code (Except Errc Unit × DirentWriter) := do
  match ← perform (.findDir fh) with
  | none => return (.error Errc.badFileDescriptor, writer)
  | some d => perform (.walk d offset writer)

/-! ### Extended attributes -/

def getxattr (n : NodeId) (name span : Bytes) : Code (Filled span) :=
  onInode n (fun e => (.error e, .of span)) fun i =>
    perform (.sys (.lgetxattr i.fd (cStr name) span))

def setxattr (n : NodeId) (name value : Bytes) (flags : UInt32) : Code (Except Errc Unit) :=
  onInode n .error fun i => perform (.sys (.lsetxattr i.fd (cStr name) value flags))

def listxattr (n : NodeId) (span : Bytes) : Code (Filled span) :=
  onInode n (fun e => (.error e, .of span)) fun i => perform (.sys (.llistxattr i.fd span))

def removexattr (n : NodeId) (name : Bytes) : Code (Except Errc Unit) :=
  onInode n .error fun i => perform (.sys (.lremovexattr i.fd (cStr name)))

/-- The callback a worker was asked for. -/
def callback : (cb : Callback) → Code cb.Answer
  | .init info => return .ok info
  | .lookupRoot _ => return .ok lookupRoot
  | .lookupx _ parent name => lookupx parent name
  | .forget n nlookup => perform (.forget n nlookup)
  | .forgetMulti items => perform (.forgetMany items)
  | .statx _ n => statx n
  | .setstatx _ n fh attrs => setstatx n fh attrs
  | .mkobjx _ parent obj => mkobjx parent obj
  | .unlink _ parent name => unlink parent name false
  | .rmdir _ parent name => unlink parent name true
  | .rename _ olddir oldname newdir newname flags => rename olddir oldname newdir newname flags
  | .link _ oldnodeid newparent newname => link oldnodeid newparent newname
  | .readlink _ n => readlink n
  | .openFile _ n flags => openFile n flags
  | .release _ _ fh _ => release fh
  | .read _ n fh offset span => read n fh offset span
  | .write _ n fh offset data => write n fh offset data
  | .fallocate _ n fh mode offset length => fallocate n fh mode offset length
  | .statfs _ n => statfs n
  | .opendir _ n => opendir n
  | .releasedir _ _ fh => releasedir fh
  | .readdir _ _ fh offset writer => readdir fh offset writer
  | .getxattr _ n name span => getxattr n name span
  | .setxattr _ n name value flags => setxattr n name value flags
  | .listxattr _ n span => listxattr n span
  | .removexattr _ n name => removexattr n name

end Code

/-! ### System calls -/

variable {ω : Type}

def OpenCall.run (os : System ω) : OpenCall → ω → Except Errc Int32 × ω
  | openat dir name => os.openat dir name
  | openTmpfile dir mode => os.openTmpfile dir mode
  | openProc fd flags => os.openProc fd flags

def SysCall.run (os : System ω) : (c : SysCall) → ω → c.Answer × ω
  | fstatat fd => os.fstatat fd
  | mknodat dir name mode dev => os.mknodat dir name mode dev
  | mkdirat dir name mode => os.mkdirat dir name mode
  | symlinkat target dir name => os.symlinkat target dir name
  | fchownat dir name uid gid => os.fchownat dir name uid gid
  | unlinkat dir name removeDir => os.unlinkat dir name removeDir
  | renameat2 olddir oldname newdir newname flags =>
    os.renameat2 olddir oldname newdir newname flags
  | linkat src dst name => os.linkat src dst name
  | readlinkat fd => os.readlinkat fd
  | pread fd span offset => os.pread fd span offset
  | pwrite fd data offset => os.pwrite fd data offset
  | fstatvfs fd => os.fstatvfs fd
  | fallocate fd mode offset length => os.fallocate fd mode offset length
  | chmod file mode => os.chmod file mode
  | chown file uid gid => os.chown file uid gid
  | truncate file size => os.truncate file size
  | utimens file atime mtime => os.utimens file atime mtime
  | lgetxattr fd name span => os.lgetxattr fd name span
  | lsetxattr fd name value flags => os.lsetxattr fd name value flags
  | llistxattr fd span => os.llistxattr fd span
  | lremovexattr fd name => os.lremovexattr fd name

/-- One step of a worker that is alone with the daemon of `Daemon`: a `shared_ptr` costs nothing,
and a descriptor that is given up stays open. -/
def aloneStep (os : System ω) : (op : DaemonOp) → Passthrough ω → op.Answer × Passthrough ω
  | .get n, s => ((s.table.get n).map fun i => ⟨0, i.pathFd⟩, s)
  | .insert fd stIno, s =>
    ((s.table.get stIno).isNone, { s with table := (s.table.insert fd stIno).2 })
  | .forget n nlookup, s => ((), forget n nlookup s)
  | .forgetMany items, s => ((), forgetMulti items s)
  | .opens c, s => ((c.run os s.system).1, { s with system := (c.run os s.system).2 })
  | .sys c, s => ((c.run os s.system).1, { s with system := (c.run os s.system).2 })
  | .drop _, s | .close _, s => ((), s)
  | .fileFd fh, s => (fileFd fh s, s)
  | .addFile fd, s =>
    let fh := s.fileId + 1
    ((fh, (s.files fh).isNone), { s with
      fileId := fh
      files := Function.update s.files fh (some ((s.files fh).getD fd)) })
  | .eraseFile fh, s => ((), { s with files := Function.update s.files fh none })
  | .fdopendir fd, s =>
    ((os.fdopendir fd s.system).1.map (⟨0, ·⟩),
      { s with system := (os.fdopendir fd s.system).2 })
  | .addDir d, s =>
    let fh := s.dirId + 1
    (fh, { s with dirId := fh, dirs := Function.update s.dirs fh (some { dir := d.dir }) })
  -- A stream is known by its handle.
  | .findDir fh, s => ((s.dirs fh).map fun _ => fh.toNat, s)
  | .eraseDir fh, s => ((), { s with dirs := Function.update s.dirs fh none })
  | .walk d off writer, s =>
    let fh := UInt64.ofNat d
    match s.dirs fh with
    | none => ((.ok (), writer), s)
    | some stream =>
      let filled := (readdirLoop (stream.seekdir off) off).fill writer
      ((filled.1.1, filled.2), { s with dirs := Function.update s.dirs fh (some filled.1.2) })

end Passthrough

end Fex
