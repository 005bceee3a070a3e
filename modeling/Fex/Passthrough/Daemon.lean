import Fex.Filesystem
import Fex.Passthrough.InodeTable

/-!
# The passthrough daemon

`PassthroughFs` of `passthrough.cpp`: every callback finds the descriptors it needs in the
daemon's tables and makes the matching system calls on them. The calls are the fields of
`System`, over a state that only the system knows; `stat` structs are given as `fill_statx`
converts them. The daemon's own logic is here in full: its tables, the order of the calls and
what becomes of their errors.
-/
namespace Fex

open Foundation

namespace Errc

def operationNotPermitted : Errc := 1
def noSuchFileOrDirectory : Errc := 2
def badFileDescriptor : Errc := 9
/-- ESTALE, for which `std::errc` has no name. -/
def staleFileHandle : Errc := 116

end Errc

namespace StatxMask

def mode : UInt32 := 0x2
def uid : UInt32 := 0x8
def gid : UInt32 := 0x10
def atime : UInt32 := 0x20
def mtime : UInt32 := 0x40
def size : UInt32 := 0x200

end StatxMask

def kMkobjxTmpfile : UInt32 := 1

/-! ### Directory streams -/

/-- What `readdir(3)` returns: `d_name` is a string in an array of 256 bytes. -/
structure SysDirent where
  name : Bytes
  ino : UInt64
  type : UInt8
  short : name.length < 256

/-- A directory as a `DIR` stream walks it: its entries in order, the `errno` at their end if
there is one, the value of `telldir` behind the first `n` entries, and the position `seekdir`
goes to. Seeking to zero or to a value of `telldir` restores the position, so that the values
behind different entries differ, and differ from zero. -/
structure Directory where
  entries : List SysDirent
  failure : Option Errc := none
  cookie : Nat → UInt64
  seek : UInt64 → Nat
  seek_zero : seek 0 = 0
  seek_cookie : ∀ n, 0 < n → n ≤ entries.length → seek (cookie n) = n

/-- An open `DIR`. -/
structure DirStream where
  dir : Directory
  pos : Nat := 0

namespace DirStream

def seekdir (d : DirStream) (off : UInt64) : DirStream := { d with pos := d.dir.seek off }

def telldir (d : DirStream) : UInt64 := d.dir.cookie d.pos

def readdir (d : DirStream) : Option (SysDirent × DirStream) :=
  d.dir.entries[d.pos]?.map fun de => (de, { d with pos := d.pos + 1 })

theorem readdir_eq_some {d d' : DirStream} {de : SysDirent} (read : d.readdir = some (de, d')) :
    d.dir.entries[d.pos]? = some de ∧ d' = { d with pos := d.pos + 1 } := by
  simp only [readdir, Option.map_eq_some_iff, Prod.mk.injEq] at read
  obtain ⟨found, present, rfl, rfl⟩ := read
  exact ⟨present, rfl⟩

end DirStream

/-! ### System calls -/

/-- How a call names a file: by an open descriptor, or by `/proc/self/fd/N`. -/
inductive FileRef where
  | fd (n : Int32)
  | proc (n : Int32)

/-- The system calls of the daemon. -/
structure System (ω : Type) where
  /-- `openat` with `O_PATH | O_NOFOLLOW | O_CLOEXEC`. -/
  openat : Int32 → Bytes → ω → Except Errc Int32 × ω
  /-- `openat` of "." with `O_TMPFILE | O_RDWR | O_CLOEXEC`. -/
  openTmpfile : Int32 → UInt16 → ω → Except Errc Int32 × ω
  /-- `open` of `/proc/self/fd/N`, with `O_CLOEXEC`. -/
  openProc : Int32 → UInt32 → ω → Except Errc Int32 × ω
  /-- `fstatat` of the descriptor itself. -/
  fstatat : Int32 → ω → Except Errc StatxOut × ω
  mknodat : Int32 → Bytes → UInt16 → UInt32 × UInt32 → ω → Except Errc Unit × ω
  mkdirat : Int32 → Bytes → UInt16 → ω → Except Errc Unit × ω
  symlinkat : Bytes → Int32 → Bytes → ω → Except Errc Unit × ω
  fchownat : Int32 → Bytes → UInt32 → UInt32 → ω → Except Errc Unit × ω
  /-- The flag is AT_REMOVEDIR. -/
  unlinkat : Int32 → Bytes → Bool → ω → Except Errc Unit × ω
  renameat2 : Int32 → Bytes → Int32 → Bytes → UInt32 → ω → Except Errc Unit × ω
  linkat : Int32 → Int32 → Bytes → ω → Except Errc Unit × ω
  readlinkat : Int32 → ω → Except Errc Bytes × ω
  pread : Int32 → (span : Bytes) → UInt64 → ω → Filled span × ω
  pwrite : Int32 → Bytes → UInt64 → ω → Except Errc Nat × ω
  fstatvfs : Int32 → ω → Except Errc StatfsOut × ω
  fallocate : Int32 → UInt32 → UInt64 → UInt64 → ω → Except Errc Unit × ω
  chmod : FileRef → UInt16 → ω → Except Errc Unit × ω
  chown : FileRef → UInt32 → UInt32 → ω → Except Errc Unit × ω
  truncate : FileRef → UInt64 → ω → Except Errc Unit × ω
  /-- The times of access and modification; `none` is UTIME_OMIT. -/
  utimens : FileRef → Option Timespec → Option Timespec → ω → Except Errc Unit × ω
  fdopendir : Int32 → ω → Except Errc Directory × ω
  lgetxattr : Int32 → Bytes → (span : Bytes) → ω → Filled span × ω
  lsetxattr : Int32 → Bytes → Bytes → UInt32 → ω → Except Errc Unit × ω
  llistxattr : Int32 → (span : Bytes) → ω → Filled span × ω
  lremovexattr : Int32 → Bytes → ω → Except Errc Unit × ω

/-- A system on which every call fails with `e`. -/
def System.failing (e : Errc) : System Unit where
  openat _ _ s := (.error e, s)
  openTmpfile _ _ s := (.error e, s)
  openProc _ _ s := (.error e, s)
  fstatat _ s := (.error e, s)
  mknodat _ _ _ _ s := (.error e, s)
  mkdirat _ _ _ s := (.error e, s)
  symlinkat _ _ _ s := (.error e, s)
  fchownat _ _ _ _ s := (.error e, s)
  unlinkat _ _ _ s := (.error e, s)
  renameat2 _ _ _ _ _ s := (.error e, s)
  linkat _ _ _ s := (.error e, s)
  readlinkat _ s := (.error e, s)
  pread _ span _ s := ((.error e, .of span), s)
  pwrite _ _ _ s := (.error e, s)
  fstatvfs _ s := (.error e, s)
  fallocate _ _ _ _ s := (.error e, s)
  chmod _ _ s := (.error e, s)
  chown _ _ _ s := (.error e, s)
  truncate _ _ s := (.error e, s)
  utimens _ _ _ s := (.error e, s)
  fdopendir _ s := (.error e, s)
  lgetxattr _ _ span s := ((.error e, .of span), s)
  lsetxattr _ _ _ _ s := (.error e, s)
  llistxattr _ span s := ((.error e, .of span), s)
  lremovexattr _ _ s := (.error e, s)

/-- The daemon's tables and the system it runs on. -/
structure Passthrough (ω : Type) where
  table : InodeTable
  files : UInt64 → Option Int32 := fun _ => none
  fileId : UInt64 := 0
  dirs : UInt64 → Option DirStream := fun _ => none
  dirId : UInt64 := 0
  system : ω

namespace Passthrough

variable {ω : Type}

/-- A callback: it may fail, and what it did before that stays done. -/
abbrev Action (ω α : Type) := ExceptT Errc (StateM (Passthrough ω)) α

/-- A system call, and `wrap_errno` if it fails. -/
def sys {α : Type} (f : ω → Except Errc α × ω) : Action ω α := fun s =>
  ((f s.system).1, { s with system := (f s.system).2 })

/-- `table_.get`, and `stale` without an entry. -/
def inode (n : NodeId) : Action ω Inode := do
  match (← get).table.get n with
  | none => throw Errc.staleFileHandle
  | some inode => return inode

def insert (fd : Int32) (stIno : UInt64) : Action ω NodeId :=
  modifyGet fun s => ((s.table.insert fd stIno).1, { s with table := (s.table.insert fd stIno).2 })

/-- `std::string{name}.c_str()` as the system reads it. -/
abbrev cStr (name : Bytes) : Bytes := beforeNul name

/-- `file_fd`: zero is no handle. -/
def fileFd (fh : FileHandle) (s : Passthrough ω) : Option Int32 :=
  if fh = 0 then none else s.files fh

section Callbacks

variable (os : System ω)

/-! ### Names and inodes -/

/-- `std::chrono::seconds(1)`. -/
def entryTimeout : Int64 := 1000000000

def lookupRoot : EntryOut := { nodeid := NodeId.root, entryValid := entryTimeout }

def lookupx (parent : NodeId) (name : Bytes) : Action ω EntryOut := do
  let p ← inode parent
  let opened ← tryCatch (some <$> sys (os.openat p.pathFd (cStr name))) fun e =>
    if e = Errc.noSuchFileOrDirectory then return none else throw e
  match opened with
  -- The kernel may cache that there is no such name.
  | none => return { negative := true }
  | some cfd =>
    let st ← sys (os.fstatat cfd)
    let n ← insert cfd st.ino
    return { nodeid := n, entryValid := entryTimeout }

def forget (n : NodeId) (nlookup : UInt64) (s : Passthrough ω) : Passthrough ω :=
  { s with table := s.table.forget n nlookup }

def forgetMulti (items : List (NodeId × UInt64)) (s : Passthrough ω) : Passthrough ω :=
  { s with table := s.table.forgetMany items }

/-- `mode & S_IFMT`. -/
def kind (mode : UInt16) : UInt16 := mode &&& 0xf000

/-- The switch over the kind of object. -/
def create (dir : Int32) (obj : MkobjxIn) : Action ω Unit :=
  let mode := obj.stat.mode
  let name := cStr obj.name
  match kind mode with
  -- S_IFREG, S_IFDIR and S_IFLNK.
  | 0x8000 => sys (os.mknodat dir name mode (0, 0))
  | 0x4000 => sys (os.mkdirat dir name (mode &&& 0x0fff))
  | 0xa000 => sys (os.symlinkat (cStr obj.linkTarget) dir name)
  -- S_IFCHR, S_IFBLK, S_IFIFO and S_IFSOCK.
  | 0x2000 | 0x6000 | 0x1000 | 0xc000 =>
    sys (os.mknodat dir name mode (obj.stat.rdevMajor, obj.stat.rdevMinor))
  | _ => throw Errc.invalidArgument

def mkobjx (parent : NodeId) (obj : MkobjxIn) : Action ω EntryOut := do
  let p ← inode parent
  let isSymlink := kind obj.stat.mode == 0xa000
  if obj.flags &&& kMkobjxTmpfile ≠ 0 then
    let fd ← sys (os.openTmpfile p.pathFd (obj.stat.mode &&& 0x0fff))
    let st ← sys (os.fstatat fd)
    -- `O_PATH`, through `/proc`.
    let pfd ← sys (os.openProc fd 0x200000)
    let n ← insert pfd st.ino
    return { nodeid := n, entryValid := entryTimeout }
  create os p.pathFd obj
  unless isSymlink do
    -- An unprivileged daemon cannot give the object away.
    tryCatch (sys (os.fchownat p.pathFd (cStr obj.name) obj.stat.uid obj.stat.gid)) fun e =>
      if e = Errc.operationNotPermitted then return else throw e
  let cfd ← sys (os.openat p.pathFd (cStr obj.name))
  let st ← sys (os.fstatat cfd)
  let n ← insert cfd st.ino
  return { nodeid := n, entryValid := entryTimeout }

def unlink (parent : NodeId) (name : Bytes) (removeDir : Bool) : Action ω Unit := do
  let p ← inode parent
  sys (os.unlinkat p.pathFd (cStr name) removeDir)

def rename (olddir : NodeId) (oldname : Bytes) (newdir : NodeId) (newname : Bytes)
    (flags : UInt32) : Action ω Unit := do
  let o ← inode olddir
  let n ← inode newdir
  sys (os.renameat2 o.pathFd (cStr oldname) n.pathFd (cStr newname) flags)

def link (oldnodeid newparent : NodeId) (newname : Bytes) : Action ω Unit := do
  let src ← inode oldnodeid
  let dst ← inode newparent
  sys (os.linkat src.pathFd dst.pathFd (cStr newname))

def readlink (n : NodeId) : Action ω Bytes := do
  let i ← inode n
  sys (os.readlinkat i.pathFd)

/-! ### Attributes -/

def statx (n : NodeId) : Action ω StatxOut := do
  let i ← inode n
  sys (os.fstatat i.pathFd)

def setstatx (n : NodeId) (fh : FileHandle) (attrs : SetStatxIn) : Action ω StatxOut := do
  -- The open file if there is one, its path in `/proc` otherwise.
  let file ← match fileFd fh (← get) with
    | some fd => pure (FileRef.fd fd)
    | none => do pure (FileRef.proc (← inode n).pathFd)
  if attrs.mask &&& StatxMask.mode ≠ 0 then sys (os.chmod file attrs.mode)
  if attrs.mask &&& (StatxMask.uid ||| StatxMask.gid) ≠ 0 then
    sys (os.chown file (if attrs.mask &&& StatxMask.uid ≠ 0 then attrs.uid else 0xffffffff)
      (if attrs.mask &&& StatxMask.gid ≠ 0 then attrs.gid else 0xffffffff))
  if attrs.mask &&& StatxMask.size ≠ 0 then sys (os.truncate file attrs.size)
  if attrs.mask &&& (StatxMask.atime ||| StatxMask.mtime) ≠ 0 then
    sys (os.utimens file (if attrs.mask &&& StatxMask.atime ≠ 0 then some attrs.atime else none)
      (if attrs.mask &&& StatxMask.mtime ≠ 0 then some attrs.mtime else none))
  statx os n

def statfs (n : NodeId) : Action ω StatfsOut := do
  let i ← inode n
  sys (os.fstatvfs i.pathFd)

/-! ### Files -/

/-- `open` keeps the access mode and the flags that outlive it. -/
def persistentFlags : UInt32 := 0x44c03

def openFile (n : NodeId) (flags : UInt32) : Action ω OpenOut := do
  let i ← inode n
  let fd ← sys (os.openProc i.pathFd (flags &&& persistentFlags))
  modifyGet fun s =>
    let handle := s.fileId + 1
    -- `emplace` leaves an entry that exists alone.
    ({ fh := handle }, { s with
      fileId := handle
      files := Function.update s.files handle (some ((s.files handle).getD fd)) })

def release (fh : FileHandle) : Action ω Unit :=
  modify fun s => { s with files := Function.update s.files fh none }

/-- `io_fd`: the open file, or the inode opened for this one call. -/
def ioFd (n : NodeId) (fh : FileHandle) (mode : UInt32) : Action ω Int32 := do
  match fileFd fh (← get) with
  | some fd => return fd
  | none =>
    let i ← inode n
    sys (os.openProc i.pathFd mode)

/-- A callback that fills a span: nothing is written when it fails before its call. -/
def fill {α : Type} (span : Bytes) (prepare : Action ω α)
    (read : α → ω → Filled span × ω) (s : Passthrough ω) : Filled span × Passthrough ω :=
  match prepare s with
  | (.error e, s) => ((.error e, .of span), s)
  | (.ok a, s) => ((read a s.system).1, { s with system := (read a s.system).2 })

def read (n : NodeId) (fh : FileHandle) (offset : UInt64) (span : Bytes) :
    Passthrough ω → Filled span × Passthrough ω :=
  fill span (ioFd os n fh 0) fun fd => os.pread fd span offset

def write (n : NodeId) (fh : FileHandle) (offset : UInt64) (data : Bytes) : Action ω Nat := do
  let fd ← ioFd os n fh 1
  sys (os.pwrite fd data offset)

def fallocate (n : NodeId) (fh : FileHandle) (mode : UInt32) (offset length : UInt64) :
    Action ω Unit := do
  let fd ← ioFd os n fh 1
  sys (os.fallocate fd mode offset length)

/-! ### Directories -/

def opendir (n : NodeId) : Action ω OpenOut := do
  let i ← inode n
  -- `O_DIRECTORY | O_RDONLY`.
  let fd ← sys (os.openProc i.pathFd 0x10000)
  let dir ← sys (os.fdopendir fd)
  modifyGet fun s =>
    let fh := s.dirId + 1
    ({ fh }, { s with dirId := fh, dirs := Function.update s.dirs fh (some { dir }) })

def releasedir (fh : FileHandle) : Action ω Unit :=
  modify fun s => { s with dirs := Function.update s.dirs fh none }

/-- The loop of `readdir`: `off` is where the last packed entry ends. -/
def readdirLoop (d : DirStream) (off : UInt64) : DirentScript (Except Errc Unit × DirStream) :=
  match _read : d.readdir with
  | none =>
    match d.dir.failure with
    | some e => pure (.error e, d)
    | none => pure (.ok (), d)
  | some (de, d') => do
    let next := d'.telldir
    let packed ← Program.ask
      { name := de.name, ino := de.ino, off := next, type := de.type.toUInt32 }
    -- Without room, rewind: the kernel asks for this entry again.
    if packed then readdirLoop d' next else pure (.ok (), d'.seekdir off)
termination_by d.dir.entries.length - d.pos
decreasing_by
  obtain ⟨present, rfl⟩ := DirStream.readdir_eq_some _read
  have inside := (List.getElem?_eq_some_iff.mp present).1
  dsimp only
  omega

def readdir (fh : FileHandle) (offset : UInt64) (s : Passthrough ω) :
    DirentScript (Except Errc Unit × Passthrough ω) :=
  match s.dirs fh with
  | none => pure (.error Errc.badFileDescriptor, s)
  | some d => do
    let (rv, d') ← readdirLoop (d.seekdir offset) offset
    return (rv, { s with dirs := Function.update s.dirs fh (some d') })

/-! ### Extended attributes -/

def getxattr (n : NodeId) (name span : Bytes) : Passthrough ω → Filled span × Passthrough ω :=
  fill span (inode n) fun i => os.lgetxattr i.pathFd (cStr name) span

def setxattr (n : NodeId) (name value : Bytes) (flags : UInt32) : Action ω Unit := do
  let i ← inode n
  sys (os.lsetxattr i.pathFd (cStr name) value flags)

def listxattr (n : NodeId) (span : Bytes) : Passthrough ω → Filled span × Passthrough ω :=
  fill span (inode n) fun i => os.llistxattr i.pathFd span

def removexattr (n : NodeId) (name : Bytes) : Action ω Unit := do
  let i ← inode n
  sys (os.lremovexattr i.pathFd (cStr name))

end Callbacks

/-- The daemon as a filesystem of the library. -/
def filesystem (os : System ω) : Filesystem (Passthrough ω) where
  init info s := (.ok info, s)
  lookupRoot _ s := (.ok lookupRoot, s)
  lookupx _ := lookupx os
  forget := forget
  forgetMulti := forgetMulti
  statx _ := statx os
  setstatx _ := setstatx os
  mkobjx _ := mkobjx os
  unlink _ parent name := unlink os parent name false
  rmdir _ parent name := unlink os parent name true
  rename _ := rename os
  link _ := link os
  readlink _ := readlink os
  openFile _ := openFile os
  release _ _ fh _ := release fh
  read _ := read os
  write _ := write os
  fallocate _ := fallocate os
  statfs _ := statfs os
  opendir _ := opendir os
  releasedir _ _ := releasedir
  readdir _ _ := readdir
  getxattr _ := getxattr os
  setxattr _ := setxattr os
  listxattr _ := listxattr os
  removexattr _ := removexattr os

/-- The daemon as `main` starts it on a backing directory. -/
def start (backing : Int32) (system : ω) : Passthrough ω :=
  { table := InodeTable.start backing, system }

end Passthrough

end Fex
