import Fex.Foundation.Codec

/-!
# The fusex wire structs

Field for field the structs of `fuse_uapi.h` that the handlers and the ring worker
touch, each with its codec; the codec's size is the C `sizeof`, and value
initialisation (`{}`) is the all-zero struct.
-/
namespace Fex

open Foundation Foundation.Codec

structure FuseInHeader where
  (len opcode : UInt32 := 0)
  (unique nodeid : UInt64 := 0)
  (uid gid pid : UInt32 := 0)
  (totalExtlen padding : UInt16 := 0)
  deriving DecidableEq

def FuseInHeader.codec : Codec FuseInHeader :=
  (u32.prod <| u32.prod <| u64.prod <| u64.prod <| u32.prod <| u32.prod <| u32.prod <| u16.prod <|
    u16).via
    (fun (a, b, c, d, e, f, g, h, i) => ⟨a, b, c, d, e, f, g, h, i⟩)
    (fun x => (x.len, x.opcode, x.unique, x.nodeid, x.uid, x.gid, x.pid, x.totalExtlen, x.padding))
    (fun _ => rfl) (fun _ => rfl)

@[simp] theorem FuseInHeader.codec_size : FuseInHeader.codec.size = 40 := rfl

structure FuseOutHeader where
  len : UInt32 := 0
  error : Int32 := 0
  unique : UInt64 := 0
  deriving DecidableEq

def FuseOutHeader.codec : Codec FuseOutHeader :=
  (u32.prod <| i32.prod <| u64).via
    (fun (a, b, c) => ⟨a, b, c⟩)
    (fun x => (x.len, x.error, x.unique))
    (fun _ => rfl) (fun _ => rfl)

@[simp] theorem FuseOutHeader.codec_size : FuseOutHeader.codec.size = 16 := rfl

structure FuseInitIn where
  (major minor maxReadahead flags flags2 : UInt32 := 0)
  unused : Blob 44 := .zero 44
  deriving DecidableEq

def FuseInitIn.codec : Codec FuseInitIn :=
  (u32.prod <| u32.prod <| u32.prod <| u32.prod <| u32.prod <| raw 44).via
    (fun (a, b, c, d, e, f) => ⟨a, b, c, d, e, f⟩)
    (fun x => (x.major, x.minor, x.maxReadahead, x.flags, x.flags2, x.unused))
    (fun _ => rfl) (fun _ => rfl)

@[simp] theorem FuseInitIn.codec_size : FuseInitIn.codec.size = 64 := rfl

structure FuseInitOut where
  (major minor maxReadahead flags : UInt32 := 0)
  (maxBackground congestionThreshold : UInt16 := 0)
  (maxWrite timeGran : UInt32 := 0)
  (maxPages mapAlignment : UInt16 := 0)
  (flags2 maxStackDepth : UInt32 := 0)
  requestTimeout : UInt16 := 0
  unused : Blob 22 := .zero 22
  deriving DecidableEq

def FuseInitOut.codec : Codec FuseInitOut :=
  (u32.prod <| u32.prod <| u32.prod <| u32.prod <| u16.prod <| u16.prod <| u32.prod <| u32.prod <|
    u16.prod <| u16.prod <| u32.prod <| u32.prod <| u16.prod <| raw 22).via
    (fun (a, b, c, d, e, f, g, h, i, j, k, l, m, n) => ⟨a, b, c, d, e, f, g, h, i, j, k, l, m, n⟩)
    (fun x => (x.major, x.minor, x.maxReadahead, x.flags, x.maxBackground, x.congestionThreshold,
      x.maxWrite, x.timeGran, x.maxPages, x.mapAlignment, x.flags2, x.maxStackDepth,
      x.requestTimeout, x.unused))
    (fun _ => rfl) (fun _ => rfl)

@[simp] theorem FuseInitOut.codec_size : FuseInitOut.codec.size = 64 := rfl

structure FuseEntryxOut where
  (nodeid entryValid : UInt64 := 0)
  (entryValidNsec flags : UInt32 := 0)
  spare : UInt64 := 0
  deriving DecidableEq

def FuseEntryxOut.codec : Codec FuseEntryxOut :=
  (u64.prod <| u64.prod <| u32.prod <| u32.prod <| u64).via
    (fun (a, b, c, d, e) => ⟨a, b, c, d, e⟩)
    (fun x => (x.nodeid, x.entryValid, x.entryValidNsec, x.flags, x.spare))
    (fun _ => rfl) (fun _ => rfl)

@[simp] theorem FuseEntryxOut.codec_size : FuseEntryxOut.codec.size = 32 := rfl

structure FuseForgetIn where
  nlookup : UInt64 := 0
  deriving DecidableEq

def FuseForgetIn.codec : Codec FuseForgetIn :=
  u64.via
    (fun a => ⟨a⟩)
    (fun x => x.nlookup)
    (fun _ => rfl) (fun _ => rfl)

@[simp] theorem FuseForgetIn.codec_size : FuseForgetIn.codec.size = 8 := rfl

structure FuseForgetOne where
  (nodeid nlookup : UInt64 := 0)
  deriving DecidableEq

def FuseForgetOne.codec : Codec FuseForgetOne :=
  (u64.prod <| u64).via
    (fun (a, b) => ⟨a, b⟩)
    (fun x => (x.nodeid, x.nlookup))
    (fun _ => rfl) (fun _ => rfl)

@[simp] theorem FuseForgetOne.codec_size : FuseForgetOne.codec.size = 16 := rfl

structure FuseBatchForgetIn where
  (count dummy : UInt32 := 0)
  deriving DecidableEq

def FuseBatchForgetIn.codec : Codec FuseBatchForgetIn :=
  (u32.prod <| u32).via
    (fun (a, b) => ⟨a, b⟩)
    (fun x => (x.count, x.dummy))
    (fun _ => rfl) (fun _ => rfl)

@[simp] theorem FuseBatchForgetIn.codec_size : FuseBatchForgetIn.codec.size = 8 := rfl

structure FuseStatxIn where
  (getattrFlags reserved : UInt32 := 0)
  fh : UInt64 := 0
  (sxFlags sxMask : UInt32 := 0)
  deriving DecidableEq

def FuseStatxIn.codec : Codec FuseStatxIn :=
  (u32.prod <| u32.prod <| u64.prod <| u32.prod <| u32).via
    (fun (a, b, c, d, e) => ⟨a, b, c, d, e⟩)
    (fun x => (x.getattrFlags, x.reserved, x.fh, x.sxFlags, x.sxMask))
    (fun _ => rfl) (fun _ => rfl)

@[simp] theorem FuseStatxIn.codec_size : FuseStatxIn.codec.size = 24 := rfl

structure FuseSxTime where
  tvSec : Int64 := 0
  tvNsec : UInt32 := 0
  reserved : Int32 := 0
  deriving DecidableEq

def FuseSxTime.codec : Codec FuseSxTime :=
  (i64.prod <| u32.prod <| i32).via
    (fun (a, b, c) => ⟨a, b, c⟩)
    (fun x => (x.tvSec, x.tvNsec, x.reserved))
    (fun _ => rfl) (fun _ => rfl)

@[simp] theorem FuseSxTime.codec_size : FuseSxTime.codec.size = 16 := rfl

structure FuseStatx where
  (mask blksize : UInt32 := 0)
  attributes : UInt64 := 0
  (nlink uid gid : UInt32 := 0)
  (mode spare0 : UInt16 := 0)
  (ino size blocks attributesMask : UInt64 := 0)
  (atime btime ctime mtime : FuseSxTime := {})
  (rdevMajor rdevMinor devMajor devMinor : UInt32 := 0)
  spare2 : Blob 112 := .zero 112
  deriving DecidableEq

def FuseStatx.codec : Codec FuseStatx :=
  (u32.prod <| u32.prod <| u64.prod <| u32.prod <| u32.prod <| u32.prod <| u16.prod <| u16.prod <|
    u64.prod <| u64.prod <| u64.prod <| u64.prod <| FuseSxTime.codec.prod <| FuseSxTime.codec.prod
    <| FuseSxTime.codec.prod <| FuseSxTime.codec.prod <| u32.prod <| u32.prod <| u32.prod <|
    u32.prod <| raw 112).via
    (fun (a, b, c, d, e, f, g, h, i, j, k, l, m, n, o, p, q, r, s, t, u) => ⟨a, b, c, d, e, f, g,
      h, i, j, k, l, m, n, o, p, q, r, s, t, u⟩)
    (fun x => (x.mask, x.blksize, x.attributes, x.nlink, x.uid, x.gid, x.mode, x.spare0, x.ino,
      x.size, x.blocks, x.attributesMask, x.atime, x.btime, x.ctime, x.mtime, x.rdevMajor,
      x.rdevMinor, x.devMajor, x.devMinor, x.spare2))
    (fun _ => rfl) (fun _ => rfl)

@[simp] theorem FuseStatx.codec_size : FuseStatx.codec.size = 256 := rfl

structure FuseStatxOut where
  attrValid : UInt64 := 0
  (attrValidNsec flags : UInt32 := 0)
  spare : Blob 16 := .zero 16
  stat : FuseStatx := {}
  deriving DecidableEq

def FuseStatxOut.codec : Codec FuseStatxOut :=
  (u64.prod <| u32.prod <| u32.prod <| (raw 16).prod <| FuseStatx.codec).via
    (fun (a, b, c, d, e) => ⟨a, b, c, d, e⟩)
    (fun x => (x.attrValid, x.attrValidNsec, x.flags, x.spare, x.stat))
    (fun _ => rfl) (fun _ => rfl)

@[simp] theorem FuseStatxOut.codec_size : FuseStatxOut.codec.size = 288 := rfl

structure FuseSetstatxIn where
  fh : UInt64 := 0
  (flags reserved : UInt32 := 0)
  stat : FuseStatx := {}
  deriving DecidableEq

def FuseSetstatxIn.codec : Codec FuseSetstatxIn :=
  (u64.prod <| u32.prod <| u32.prod <| FuseStatx.codec).via
    (fun (a, b, c, d) => ⟨a, b, c, d⟩)
    (fun x => (x.fh, x.flags, x.reserved, x.stat))
    (fun _ => rfl) (fun _ => rfl)

@[simp] theorem FuseSetstatxIn.codec_size : FuseSetstatxIn.codec.size = 272 := rfl

/-- `stat` is what follows the control header. -/
theorem FuseSetstatxIn.drop_enc (req : FuseSetstatxIn) :
    (FuseSetstatxIn.codec.enc req).drop (FuseSetstatxIn.codec.size - FuseStatx.codec.size) =
      FuseStatx.codec.enc req.stat := by
  have split : FuseSetstatxIn.codec.enc req = u64.enc req.fh ++ u32.enc req.flags ++
      u32.enc req.reserved ++ FuseStatx.codec.enc req.stat := by
    simp only [List.append_assoc]
    rfl
  rw [split, List.drop_left']
  simp only [List.length_append, Codec.length_enc]
  rfl

/-- The control fields come first and `stat` is a separate argument on the wire. -/
structure FuseMkobjxIn where
  (namesize flags : UInt32 := 0)
  spare : Blob 56 := .zero 56
  stat : FuseStatx := {}
  deriving DecidableEq

def FuseMkobjxIn.codec : Codec FuseMkobjxIn :=
  (u32.prod <| u32.prod <| (raw 56).prod <| FuseStatx.codec).via
    (fun (a, b, c, d) => ⟨a, b, c, d⟩)
    (fun x => (x.namesize, x.flags, x.spare, x.stat))
    (fun _ => rfl) (fun _ => rfl)

@[simp] theorem FuseMkobjxIn.codec_size : FuseMkobjxIn.codec.size = 320 := rfl

theorem FuseMkobjxIn.drop_enc (req : FuseMkobjxIn) :
    (FuseMkobjxIn.codec.enc req).drop (FuseMkobjxIn.codec.size - FuseStatx.codec.size) =
      FuseStatx.codec.enc req.stat := by
  have split : FuseMkobjxIn.codec.enc req = u32.enc req.namesize ++ u32.enc req.flags ++
      (raw 56).enc req.spare ++ FuseStatx.codec.enc req.stat := by
    simp only [List.append_assoc]
    rfl
  rw [split, List.drop_left']
  simp only [List.length_append, Codec.length_enc]
  rfl

structure FuseRename2In where
  newdir : UInt64 := 0
  (flags padding : UInt32 := 0)
  deriving DecidableEq

def FuseRename2In.codec : Codec FuseRename2In :=
  (u64.prod <| u32.prod <| u32).via
    (fun (a, b, c) => ⟨a, b, c⟩)
    (fun x => (x.newdir, x.flags, x.padding))
    (fun _ => rfl) (fun _ => rfl)

@[simp] theorem FuseRename2In.codec_size : FuseRename2In.codec.size = 16 := rfl

structure FuseLinkIn where
  oldnodeid : UInt64 := 0
  deriving DecidableEq

def FuseLinkIn.codec : Codec FuseLinkIn :=
  u64.via
    (fun a => ⟨a⟩)
    (fun x => x.oldnodeid)
    (fun _ => rfl) (fun _ => rfl)

@[simp] theorem FuseLinkIn.codec_size : FuseLinkIn.codec.size = 8 := rfl

structure FuseOpenIn where
  (flags openFlags : UInt32 := 0)
  deriving DecidableEq

def FuseOpenIn.codec : Codec FuseOpenIn :=
  (u32.prod <| u32).via
    (fun (a, b) => ⟨a, b⟩)
    (fun x => (x.flags, x.openFlags))
    (fun _ => rfl) (fun _ => rfl)

@[simp] theorem FuseOpenIn.codec_size : FuseOpenIn.codec.size = 8 := rfl

structure FuseOpenOut where
  fh : UInt64 := 0
  openFlags : UInt32 := 0
  backingId : Int32 := 0
  deriving DecidableEq

def FuseOpenOut.codec : Codec FuseOpenOut :=
  (u64.prod <| u32.prod <| i32).via
    (fun (a, b, c) => ⟨a, b, c⟩)
    (fun x => (x.fh, x.openFlags, x.backingId))
    (fun _ => rfl) (fun _ => rfl)

@[simp] theorem FuseOpenOut.codec_size : FuseOpenOut.codec.size = 16 := rfl

structure FuseReleaseIn where
  fh : UInt64 := 0
  (flags releaseFlags : UInt32 := 0)
  lockOwner : UInt64 := 0
  deriving DecidableEq

def FuseReleaseIn.codec : Codec FuseReleaseIn :=
  (u64.prod <| u32.prod <| u32.prod <| u64).via
    (fun (a, b, c, d) => ⟨a, b, c, d⟩)
    (fun x => (x.fh, x.flags, x.releaseFlags, x.lockOwner))
    (fun _ => rfl) (fun _ => rfl)

@[simp] theorem FuseReleaseIn.codec_size : FuseReleaseIn.codec.size = 24 := rfl

structure FuseReadIn where
  (fh offset : UInt64 := 0)
  (size readFlags : UInt32 := 0)
  lockOwner : UInt64 := 0
  (flags padding : UInt32 := 0)
  deriving DecidableEq

def FuseReadIn.codec : Codec FuseReadIn :=
  (u64.prod <| u64.prod <| u32.prod <| u32.prod <| u64.prod <| u32.prod <| u32).via
    (fun (a, b, c, d, e, f, g) => ⟨a, b, c, d, e, f, g⟩)
    (fun x => (x.fh, x.offset, x.size, x.readFlags, x.lockOwner, x.flags, x.padding))
    (fun _ => rfl) (fun _ => rfl)

@[simp] theorem FuseReadIn.codec_size : FuseReadIn.codec.size = 40 := rfl

structure FuseWriteIn where
  (fh offset : UInt64 := 0)
  (size writeFlags : UInt32 := 0)
  lockOwner : UInt64 := 0
  (flags padding : UInt32 := 0)
  deriving DecidableEq

def FuseWriteIn.codec : Codec FuseWriteIn :=
  (u64.prod <| u64.prod <| u32.prod <| u32.prod <| u64.prod <| u32.prod <| u32).via
    (fun (a, b, c, d, e, f, g) => ⟨a, b, c, d, e, f, g⟩)
    (fun x => (x.fh, x.offset, x.size, x.writeFlags, x.lockOwner, x.flags, x.padding))
    (fun _ => rfl) (fun _ => rfl)

@[simp] theorem FuseWriteIn.codec_size : FuseWriteIn.codec.size = 40 := rfl

structure FuseWriteOut where
  (size padding : UInt32 := 0)
  deriving DecidableEq

def FuseWriteOut.codec : Codec FuseWriteOut :=
  (u32.prod <| u32).via
    (fun (a, b) => ⟨a, b⟩)
    (fun x => (x.size, x.padding))
    (fun _ => rfl) (fun _ => rfl)

@[simp] theorem FuseWriteOut.codec_size : FuseWriteOut.codec.size = 8 := rfl

structure FuseKstatfs where
  (blocks bfree bavail files ffree : UInt64 := 0)
  (bsize namelen frsize padding : UInt32 := 0)
  spare : Blob 24 := .zero 24
  deriving DecidableEq

def FuseKstatfs.codec : Codec FuseKstatfs :=
  (u64.prod <| u64.prod <| u64.prod <| u64.prod <| u64.prod <| u32.prod <| u32.prod <| u32.prod <|
    u32.prod <| raw 24).via
    (fun (a, b, c, d, e, f, g, h, i, j) => ⟨a, b, c, d, e, f, g, h, i, j⟩)
    (fun x => (x.blocks, x.bfree, x.bavail, x.files, x.ffree, x.bsize, x.namelen, x.frsize,
      x.padding, x.spare))
    (fun _ => rfl) (fun _ => rfl)

@[simp] theorem FuseKstatfs.codec_size : FuseKstatfs.codec.size = 80 := rfl

structure FuseSetxattrIn where
  (size flags setxattrFlags padding : UInt32 := 0)
  deriving DecidableEq

def FuseSetxattrIn.codec : Codec FuseSetxattrIn :=
  (u32.prod <| u32.prod <| u32.prod <| u32).via
    (fun (a, b, c, d) => ⟨a, b, c, d⟩)
    (fun x => (x.size, x.flags, x.setxattrFlags, x.padding))
    (fun _ => rfl) (fun _ => rfl)

@[simp] theorem FuseSetxattrIn.codec_size : FuseSetxattrIn.codec.size = 16 := rfl

structure FuseGetxattrIn where
  (size padding : UInt32 := 0)
  deriving DecidableEq

def FuseGetxattrIn.codec : Codec FuseGetxattrIn :=
  (u32.prod <| u32).via
    (fun (a, b) => ⟨a, b⟩)
    (fun x => (x.size, x.padding))
    (fun _ => rfl) (fun _ => rfl)

@[simp] theorem FuseGetxattrIn.codec_size : FuseGetxattrIn.codec.size = 8 := rfl

structure FuseGetxattrOut where
  (size padding : UInt32 := 0)
  deriving DecidableEq

def FuseGetxattrOut.codec : Codec FuseGetxattrOut :=
  (u32.prod <| u32).via
    (fun (a, b) => ⟨a, b⟩)
    (fun x => (x.size, x.padding))
    (fun _ => rfl) (fun _ => rfl)

@[simp] theorem FuseGetxattrOut.codec_size : FuseGetxattrOut.codec.size = 8 := rfl

structure FuseFallocateIn where
  (fh offset length : UInt64 := 0)
  (mode padding : UInt32 := 0)
  deriving DecidableEq

def FuseFallocateIn.codec : Codec FuseFallocateIn :=
  (u64.prod <| u64.prod <| u64.prod <| u32.prod <| u32).via
    (fun (a, b, c, d, e) => ⟨a, b, c, d, e⟩)
    (fun x => (x.fh, x.offset, x.length, x.mode, x.padding))
    (fun _ => rfl) (fun _ => rfl)

@[simp] theorem FuseFallocateIn.codec_size : FuseFallocateIn.codec.size = 32 := rfl

/-- The fixed part of `struct fuse_dirent`; the name and its padding follow it. -/
structure FuseDirent where
  (ino off : UInt64 := 0)
  (namelen type : UInt32 := 0)
  deriving DecidableEq

def FuseDirent.codec : Codec FuseDirent :=
  (u64.prod <| u64.prod <| u32.prod <| u32).via
    (fun (a, b, c, d) => ⟨a, b, c, d⟩)
    (fun x => (x.ino, x.off, x.namelen, x.type))
    (fun _ => rfl) (fun _ => rfl)

@[simp] theorem FuseDirent.codec_size : FuseDirent.codec.size = 24 := rfl

structure FuseCompoundIn where
  reserved : Blob 16 := .zero 16
  deriving DecidableEq

def FuseCompoundIn.codec : Codec FuseCompoundIn :=
  (raw 16).via
    (fun a => ⟨a⟩)
    (fun x => x.reserved)
    (fun _ => rfl) (fun _ => rfl)

@[simp] theorem FuseCompoundIn.codec_size : FuseCompoundIn.codec.size = 16 := rfl

structure FuseCompoundOut where
  reserved : Blob 16 := .zero 16
  deriving DecidableEq

def FuseCompoundOut.codec : Codec FuseCompoundOut :=
  (raw 16).via
    (fun a => ⟨a⟩)
    (fun x => x.reserved)
    (fun _ => rfl) (fun _ => rfl)

@[simp] theorem FuseCompoundOut.codec_size : FuseCompoundOut.codec.size = 16 := rfl

structure FuseCompoundReqIn where
  depIndex : UInt8 := 0
  reserved : Blob 3 := .zero 3
  deriving DecidableEq

def FuseCompoundReqIn.codec : Codec FuseCompoundReqIn :=
  (u8.prod <| raw 3).via
    (fun (a, b) => ⟨a, b⟩)
    (fun x => (x.depIndex, x.reserved))
    (fun _ => rfl) (fun _ => rfl)

@[simp] theorem FuseCompoundReqIn.codec_size : FuseCompoundReqIn.codec.size = 4 := rfl

structure FuseUringEntInOut where
  (flags commitId : UInt64 := 0)
  (payloadSz padding : UInt32 := 0)
  reserved : UInt64 := 0
  deriving DecidableEq

def FuseUringEntInOut.codec : Codec FuseUringEntInOut :=
  (u64.prod <| u64.prod <| u32.prod <| u32.prod <| u64).via
    (fun (a, b, c, d, e) => ⟨a, b, c, d, e⟩)
    (fun x => (x.flags, x.commitId, x.payloadSz, x.padding, x.reserved))
    (fun _ => rfl) (fun _ => rfl)

@[simp] theorem FuseUringEntInOut.codec_size : FuseUringEntInOut.codec.size = 32 := rfl

/-! ### Constants -/

def fuseKernelVersion : UInt32 := 7
def fuseKernelMinorVersion : UInt32 := 46

def fuseWritebackCache : UInt64 := 0x10000
def fuseParallelDirops : UInt64 := 0x40000
def fuseMaxPages : UInt64 := 0x400000
def fuseInitExt : UInt64 := 0x40000000
def fuseOverIoUring : UInt64 := 0x20000000000

def fopenCacheDir : UInt32 := 8
def fuseEntryxNegative : UInt32 := 1
def fuseCompoundNoDep : UInt8 := 0xff

def fuseUringInOutHeaderSz : Nat := 128
def fuseUringOpInOutSz : Nat := 128

/-- `sizeof(fuse_uring_req_header)`: `in_out`, `op_in` and `ring_ent_in_out`. -/
def uringReqHeaderSize : Nat :=
  fuseUringInOutHeaderSz + fuseUringOpInOutSz + FuseUringEntInOut.codec.size

/-- The opcodes `dispatch` has a case for. -/
inductive Opcode where
  | init | lookupRoot | lookupx | forget | batchForget | statx | setstatx | mkobjx
  | unlink | rmdir | rename2 | link | read | write | readlink | statfs | fallocate
  | openFile | release | opendir | releasedir | readdir
  | getxattr | setxattr | listxattr | removexattr | compound
  deriving DecidableEq, Repr

namespace Opcode

def code : Opcode → UInt32
  | forget => 2 | readlink => 5 | unlink => 10 | rmdir => 11 | link => 13 | openFile => 14
  | read => 15 | write => 16 | statfs => 17 | release => 18 | setxattr => 21
  | getxattr => 22 | listxattr => 23 | removexattr => 24 | init => 26 | opendir => 27
  | readdir => 28 | releasedir => 29 | batchForget => 42 | fallocate => 43 | rename2 => 45
  | statx => 52 | lookupRoot => 54 | lookupx => 55 | mkobjx => 56 | setstatx => 58
  | compound => 60

def all : List Opcode :=
  [init, lookupRoot, lookupx, forget, batchForget, statx, setstatx, mkobjx, unlink, rmdir,
    rename2, link, read, write, readlink, statfs, fallocate, openFile, release, opendir,
    releasedir, readdir, getxattr, setxattr, listxattr, removexattr, compound]

/-- The `case` label a raw opcode reaches; `none` is the `default` of the switch. -/
def ofCode (raw : UInt32) : Option Opcode := all.find? fun op => op.code == raw

@[simp] theorem ofCode_code (op : Opcode) : ofCode op.code = some op := by
  cases op <;> rfl

theorem ofCode_eq_some_iff (raw : UInt32) (op : Opcode) :
    ofCode raw = some op ↔ raw = op.code := by
  constructor
  · intro found
    have same := List.find?_some found
    exact (beq_iff_eq.mp same).symm
  · rintro rfl
    exact ofCode_code op

end Opcode

end Fex
