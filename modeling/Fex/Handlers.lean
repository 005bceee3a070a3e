import Fex.SessionImpl

/-!
# Per-opcode handlers

Each handler takes the in-header, the request body and the `Replier` it fills, and
returns the filled `Replier`. A handler is cut where the source makes its callback:
`parseX` reads the arguments out of the body (`none` is the EINVAL reply), `serveX`
makes the callback and packs the answer. `opts` carries `uring_payload_bytes`, the
one session option a handler reads.
-/
namespace Fex

open Foundation

structure SessionOptions where
  uringPayloadBytes : Nat := 0x100000

/-- `if (!in) { reply_error(r, invalid_argument); return; }`. -/
def withArgs {α : Type} (r : Replier) (parse : Handler (Option α)) (serve : α → Handler Replier) :
    Handler Replier := do
  match ← parse with
  | none => return replyError r Errc.invalidArgument
  | some args => serve args

/-- `if (!rv) { reply_error(r, rv.error()); return; }`. -/
def withAnswer {α : Type} (r : Replier) (rv : Except Errc α) (pack : α → Handler Replier) :
    Handler Replier :=
  match rv with
  | .error e => return replyError r e
  | .ok value => pack value

/-- The same for a callback without a result. -/
def replyStatus (r : Replier) (rv : Except Errc Unit) : Handler Replier :=
  withAnswer r rv fun _ => return replyOk r

/-! ### statx conversion -/

def packTime (t : Timespec) : FuseSxTime := { tvSec := t.sec, tvNsec := t.nsec }

def packStatx (src : StatxOut) (attrValid : Int64) : FuseStatxOut where
  attrValid := (splitDuration attrValid).1
  attrValidNsec := (splitDuration attrValid).2
  stat :=
    { mask := src.mask, blksize := src.blksize, attributes := src.attributes
      nlink := src.nlink, uid := src.uid, gid := src.gid, mode := src.mode, ino := src.ino
      size := src.size, blocks := src.blocks, attributesMask := src.attributesMask
      atime := packTime src.atime, btime := packTime src.btime, ctime := packTime src.ctime
      mtime := packTime src.mtime, rdevMajor := src.rdevMajor, rdevMinor := src.rdevMinor
      devMajor := src.devMajor, devMinor := src.devMinor }

def unpackTime (t : FuseSxTime) : Timespec := ⟨t.tvSec, t.tvNsec⟩

def unpackStatx (w : FuseStatx) : SetStatxIn :=
  { mask := w.mask, mode := w.mode, uid := w.uid, gid := w.gid, size := w.size
    atime := unpackTime w.atime, ctime := unpackTime w.ctime, mtime := unpackTime w.mtime }

/-- `std::chrono::seconds(1)`. -/
def oneSecond : Int64 := 1000000000

/-! ### Session handlers -/

def kernelFlags (req : FuseInitIn) : UInt64 :=
  req.flags.toUInt64 ||| (req.flags2.toUInt64 <<< 32)

/-- The `InitInfo` offered to `Filesystem::init`: limits capped to one ring slot. -/
def initInfo (opts : SessionOptions) (req : FuseInitIn) : InitInfo :=
  let defaults : InitInfo := {}
  { defaults with
    kernelMajor := req.major
    kernelMinor := req.minor
    kernelFlags := kernelFlags req
    maxReadahead := req.maxReadahead
    maxWrite := min defaults.maxWrite (UInt32.ofNat opts.uringPayloadBytes)
    maxPages := UInt16.ofNat
      (min defaults.maxPages.toNat ((opts.uringPayloadBytes + 4095) / 4096))
    flags := fuseInitExt ||| fuseMaxPages ||| fuseParallelDirops ||| fuseOverIoUring
      ||| fuseWritebackCache }

/-- The reply to a kernel of the same major version. -/
def initOut (req : FuseInitIn) (info : InitInfo) : FuseInitOut :=
  -- Kept even if the file system has cleared it.
  let flags := info.flags ||| fuseOverIoUring
  { major := fuseKernelVersion
    minor := min req.minor fuseKernelMinorVersion
    maxReadahead := req.maxReadahead
    flags := flags.toUInt32
    flags2 := (flags >>> 32).toUInt32
    maxBackground := 64
    congestionThreshold := 48
    maxWrite := info.maxWrite
    timeGran := info.timeGran
    maxPages := info.maxPages }

def serveInit (opts : SessionOptions) (r : Replier) (req : FuseInitIn) : Handler Replier := do
  let rv ← call (.init (initInfo opts req))
  withAnswer r rv fun info =>
    -- The daemon has accepted, but the kernel may still try again with our version.
    if info.kernelMajor ≠ fuseKernelVersion then
      replyPod FuseInitOut.codec r { major := fuseKernelVersion }
    else do
      -- `run()` takes this for the end of the handshake.
      setInitDone
      replyPod FuseInitOut.codec r (initOut req info)

def handleInit (opts : SessionOptions) (h : FuseInHeader) (body : Span) (r : Replier) :
    Handler Replier :=
  withArgs r (inArg FuseInitIn.codec h body) fun req =>
    -- There is no transport but the rings.
    if kernelFlags req &&& fuseOverIoUring = 0 then
      return replyError r Errc.operationNotSupported
    else serveInit opts r req

/-- The `fuse_entryx_out` of a lookup result. -/
def entryxOut (entry : EntryOut) : FuseEntryxOut :=
  { nodeid := entry.nodeid
    entryValid := (splitDuration entry.entryValid).1
    entryValidNsec := (splitDuration entry.entryValid).2
    flags := if entry.negative then fuseEntryxNegative else 0 }

def handleLookupRoot (h : FuseInHeader) (r : Replier) : Handler Replier := do
  let rv ← call (.lookupRoot (makeCtx h))
  withAnswer r rv fun entry => replyPod FuseEntryxOut.codec r (entryxOut entry)

/-- The name at the head of the body of LOOKUPX, UNLINK and RMDIR. -/
def parseName (body : Span) : Handler (Option Bytes) :=
  if body.len < 1 then pure none else cString body 0 body.len

def serveLookupx (h : FuseInHeader) (r : Replier) (name : Bytes) : Handler Replier := do
  let rv ← call (.lookupx (makeCtx h) h.nodeid name)
  withAnswer r rv fun entry => replyPod FuseEntryxOut.codec r (entryxOut entry)

def handleLookupx (h : FuseInHeader) (body : Span) (r : Replier) : Handler Replier :=
  withArgs r (parseName body) (serveLookupx h r)

def serveForget (h : FuseInHeader) (r : Replier) (nlookup : UInt64) : Handler Replier := do
  let _ ← call (.forget h.nodeid nlookup)
  return replyOk r

def handleForget (h : FuseInHeader) (body : Span) (r : Replier) : Handler Replier :=
  withArgs r (inArg FuseForgetIn.codec h body) fun req => serveForget h r req.nlookup

/-- The `count` array elements from `off` on, in order. -/
def forgetItems (body : Span) (off : Nat) : Nat → Handler (List (NodeId × UInt64))
  | 0 => pure []
  | count + 1 => do
    let bytes ← load .scratch body off FuseForgetOne.codec.size
    let item := FuseForgetOne.codec.dec bytes
    let rest ← forgetItems body (off + FuseForgetOne.codec.size) count
    return (item.nodeid, item.nlookup) :: rest

/-- The batch, or `none` when the body is shorter than the declared count. The array
is read right behind the counter's place without extensions. -/
def parseBatch (body : Span) (count : Nat) : Handler (Option (List (NodeId × UInt64))) :=
  let off := FuseBatchForgetIn.codec.size
  if body.len < off + count * FuseForgetOne.codec.size then pure none
  else do
    let items ← forgetItems body off count
    return some items

def serveForgetMulti (r : Replier) (items : List (NodeId × UInt64)) : Handler Replier := do
  let _ ← call (.forgetMulti items)
  return replyOk r

def handleBatchForget (h : FuseInHeader) (body : Span) (r : Replier) : Handler Replier :=
  withArgs r (inArg FuseBatchForgetIn.codec h body) fun req => do
    match ← parseBatch body req.count.toNat with
    -- There is no error reply for BATCH_FORGET on the wire.
    | none => return replyOk r
    | some items => serveForgetMulti r items

/-! ### Attribute handlers -/

def serveStatx (h : FuseInHeader) (r : Replier) : Handler Replier := do
  let rv ← call (.statx (makeCtx h) h.nodeid)
  withAnswer r rv fun stat => replyPod FuseStatxOut.codec r (packStatx stat oneSecond)

def handleStatx (h : FuseInHeader) (body : Span) (r : Replier) : Handler Replier :=
  withArgs r (inArg FuseStatxIn.codec h body) fun _ => serveStatx h r

/-- The file handle and attributes of SETSTATX. The attributes are read at
`offsetof(stat)`, whatever extensions precede the control header. -/
def parseSetstatx (h : FuseInHeader) (body : Span) :
    Handler (Option (FileHandle × SetStatxIn)) := do
  let statOff := FuseSetstatxIn.codec.size - FuseStatx.codec.size
  match ← inArg FuseSetstatxIn.codec h body with
  | none => return none
  | some req =>
    if body.len < statOff + FuseStatx.codec.size then return none
    let sx ← load .scratch body statOff FuseStatx.codec.size
    return some (req.fh, unpackStatx (FuseStatx.codec.dec sx))

def serveSetstatx (h : FuseInHeader) (r : Replier) (args : FileHandle × SetStatxIn) :
    Handler Replier := do
  let rv ← call (.setstatx (makeCtx h) h.nodeid args.1 args.2)
  withAnswer r rv fun stat => replyPod FuseStatxOut.codec r (packStatx stat oneSecond)

def handleSetstatx (h : FuseInHeader) (body : Span) (r : Replier) : Handler Replier :=
  withArgs r (parseSetstatx h body) (serveSetstatx h r)

/-- The attributes MKOBJX copies out of the request. -/
def mkobjxStat (sx : FuseStatx) : StatxOut :=
  { mode := sx.mode, uid := sx.uid, gid := sx.gid, rdevMajor := sx.rdevMajor
    rdevMinor := sx.rdevMinor, mask := sx.mask, atime := unpackTime sx.atime
    btime := unpackTime sx.btime, ctime := unpackTime sx.ctime, mtime := unpackTime sx.mtime }

/-- `(mode & S_IFMT) == S_IFLNK`. -/
def isSymlink (mode : UInt16) : Bool := mode &&& 0xf000 == 0xa000

/-- The link body after the name; a missing NUL ends it at the end of the body. -/
def parseLinkBody (body : Span) (after : Nat) (mode : UInt16) : Handler Bytes :=
  if isSymlink mode ∧ body.len > after then do
    let llen ← strnlen body after (body.len - after)
    let target ← load .scratch body after llen
    return target.1
  else return []

def parseMkobjx (h : FuseInHeader) (body : Span) : Handler (Option MkobjxIn) := do
  let statOff := FuseMkobjxIn.codec.size - FuseStatx.codec.size
  let nameOff := statOff + FuseStatx.codec.size
  -- The control header is behind the extensions, the attributes and the name are not.
  if body.len < extBytes h + nameOff then return none
  let ctrl ← load .scratch body (extBytes h) FuseMkobjxIn.codec.size
  let req := FuseMkobjxIn.codec.dec ctrl
  let stat ← load .scratch body statOff FuseStatx.codec.size
  let sx := FuseStatx.codec.dec stat
  if body.len < nameOff + req.namesize.toNat then return none
  -- `namesize` counts the trailing NUL, which is not checked.
  let nameLen := if req.namesize = 0 then 0 else req.namesize.toNat - 1
  let name ← load .scratch body nameOff nameLen
  let linkBody ← parseLinkBody body (nameOff + req.namesize.toNat) sx.mode
  return some
    { stat := mkobjxStat sx, flags := req.flags, name := name.1, linkTarget := linkBody }

def serveMkobjx (h : FuseInHeader) (r : Replier) (obj : MkobjxIn) : Handler Replier := do
  let rv ← call (.mkobjx (makeCtx h) h.nodeid obj)
  withAnswer r rv fun entry =>
    replyPod FuseEntryxOut.codec r { entryxOut entry with flags := 0 }

def handleMkobjx (h : FuseInHeader) (body : Span) (r : Replier) : Handler Replier :=
  withArgs r (parseMkobjx h body) (serveMkobjx h r)

/-! ### Name handlers -/

def serveUnlink (h : FuseInHeader) (r : Replier) (isRmdir : Bool) (name : Bytes) :
    Handler Replier :=
  if isRmdir then do
    let rv ← call (.rmdir (makeCtx h) h.nodeid name)
    replyStatus r rv
  else do
    let rv ← call (.unlink (makeCtx h) h.nodeid name)
    replyStatus r rv

def handleUnlink (h : FuseInHeader) (body : Span) (r : Replier) (isRmdir : Bool) :
    Handler Replier :=
  withArgs r (parseName body) (serveUnlink h r isRmdir)

def parseRename2 (h : FuseInHeader) (body : Span) :
    Handler (Option (FuseRename2In × Bytes × Bytes)) := do
  let namesOff := extBytes h + FuseRename2In.codec.size
  if body.len < namesOff + 2 then return none
  let bytes ← load .scratch body (extBytes h) FuseRename2In.codec.size
  let avail := sizeSub body.len namesOff
  match ← cString body namesOff avail with
  | none => return none
  | some oldname =>
    let second := namesOff + oldname.length + 1
    let remain := sizeSub (sizeSub avail oldname.length) 1
    match ← cString body second remain with
    | none => return none
    | some newname => return some (FuseRename2In.codec.dec bytes, oldname, newname)

def serveRename2 (h : FuseInHeader) (r : Replier) (args : FuseRename2In × Bytes × Bytes) :
    Handler Replier := do
  let (req, oldname, newname) := args
  let rv ← call (.rename (makeCtx h) h.nodeid oldname req.newdir newname req.flags)
  replyStatus r rv

def handleRename2 (h : FuseInHeader) (body : Span) (r : Replier) : Handler Replier :=
  withArgs r (parseRename2 h body) (serveRename2 h r)

/-- `[struct][name + NUL]`: LINK, GETXATTR and the head of SETXATTR. -/
def parseStructName {α : Type} (codec : Codec α) (h : FuseInHeader) (body : Span) :
    Handler (Option (α × Bytes)) := do
  let nameOff := extBytes h + codec.size
  if body.len < nameOff + 1 then return none
  let bytes ← load .scratch body (extBytes h) codec.size
  match ← cString body nameOff (sizeSub body.len nameOff) with
  | none => return none
  | some name => return some (codec.dec bytes, name)

def serveLink (h : FuseInHeader) (r : Replier) (args : FuseLinkIn × Bytes) :
    Handler Replier := do
  let rv ← call (.link (makeCtx h) args.1.oldnodeid h.nodeid args.2)
  replyStatus r rv

def handleLink (h : FuseInHeader) (body : Span) (r : Replier) : Handler Replier :=
  withArgs r (parseStructName FuseLinkIn.codec h body) (serveLink h r)

/-! ### File handlers -/

def serveOpen (h : FuseInHeader) (r : Replier) (flags : UInt32) : Handler Replier := do
  let rv ← call (.openFile (makeCtx h) h.nodeid flags)
  withAnswer r rv fun opened =>
    replyPod FuseOpenOut.codec r { fh := opened.fh, openFlags := opened.openFlags }

def handleOpen (h : FuseInHeader) (body : Span) (r : Replier) : Handler Replier :=
  withArgs r (inArg FuseOpenIn.codec h body) fun req => serveOpen h r req.flags

def serveRelease (h : FuseInHeader) (r : Replier) (req : FuseReleaseIn) : Handler Replier := do
  let rv ← call (.release (makeCtx h) h.nodeid req.fh req.flags)
  replyStatus r rv

def handleRelease (h : FuseInHeader) (body : Span) (r : Replier) : Handler Replier :=
  withArgs r (inArg FuseReleaseIn.codec h body) (serveRelease h r)

/-- The reply of a callback that was given `want` bytes of the reply area to fill. -/
def replyFilled (r : Replier) (want : Nat) (rv : Except Errc Nat) : Handler Replier :=
  withAnswer r rv fun n => return { r with negErr := 0, len := min n want }

def serveRead (h : FuseInHeader) (r : Replier) (req : FuseReadIn) : Handler Replier := do
  let want := min req.size.toNat r.cap
  let span ← load .slot r.span 0 want
  let (rv, filled) ← call (.read (makeCtx h) h.nodeid req.fh req.offset span.1)
  store .slot r.span 0 filled.1
  replyFilled r want rv

def handleRead (h : FuseInHeader) (body : Span) (r : Replier) : Handler Replier :=
  withArgs r (inArg FuseReadIn.codec h body) (serveRead h r)

def parseWrite (h : FuseInHeader) (body : Span) : Handler (Option (FuseWriteIn × Bytes)) := do
  let dataOff := extBytes h + FuseWriteIn.codec.size
  if body.len < dataOff then return none
  let bytes ← load .scratch body (extBytes h) FuseWriteIn.codec.size
  let req := FuseWriteIn.codec.dec bytes
  if sizeSub body.len dataOff < req.size.toNat then return none
  let data ← load .scratch body dataOff req.size.toNat
  return some (req, data.1)

def serveWrite (h : FuseInHeader) (r : Replier) (args : FuseWriteIn × Bytes) :
    Handler Replier := do
  let (req, data) := args
  let rv ← call (.write (makeCtx h) h.nodeid req.fh req.offset data)
  withAnswer r rv fun n => replyPod FuseWriteOut.codec r { size := UInt32.ofNat n }

def handleWrite (h : FuseInHeader) (body : Span) (r : Replier) : Handler Replier :=
  withArgs r (parseWrite h body) (serveWrite h r)

def handleReadlink (h : FuseInHeader) (r : Replier) : Handler Replier := do
  let rv ← call (.readlink (makeCtx h) h.nodeid)
  withAnswer r rv fun target => replyPayload r target

def handleStatfs (h : FuseInHeader) (r : Replier) : Handler Replier := do
  let rv ← call (.statfs (makeCtx h) h.nodeid)
  withAnswer r rv fun st =>
    replyPod FuseKstatfs.codec r
      { blocks := st.blocks, bfree := st.bfree, bavail := st.bavail, files := st.files
        ffree := st.ffree, bsize := st.bsize, namelen := st.namelen, frsize := st.frsize }

def serveFallocate (h : FuseInHeader) (r : Replier) (req : FuseFallocateIn) :
    Handler Replier := do
  let rv ← call (.fallocate (makeCtx h) h.nodeid req.fh req.mode req.offset req.length)
  replyStatus r rv

def handleFallocate (h : FuseInHeader) (body : Span) (r : Replier) : Handler Replier :=
  withArgs r (inArg FuseFallocateIn.codec h body) (serveFallocate h r)

/-! ### Directory handlers -/

def handleOpendir (h : FuseInHeader) (r : Replier) : Handler Replier := do
  let rv ← call (.opendir (makeCtx h) h.nodeid)
  withAnswer r rv fun opened =>
    replyPod FuseOpenOut.codec r
      { fh := opened.fh, openFlags := opened.openFlags ||| fopenCacheDir }

def serveReleasedir (h : FuseInHeader) (r : Replier) (fh : FileHandle) : Handler Replier := do
  let rv ← call (.releasedir (makeCtx h) h.nodeid fh)
  replyStatus r rv

def handleReleasedir (h : FuseInHeader) (body : Span) (r : Replier) : Handler Replier :=
  withArgs r (inArg FuseReleaseIn.codec h body) fun req => serveReleasedir h r req.fh

def serveReaddir (h : FuseInHeader) (r : Replier) (req : FuseReadIn) : Handler Replier := do
  let cap := min req.size.toNat r.cap
  let span ← load .slot r.span 0 cap
  let (rv, w) ← call (.readdir (makeCtx h) h.nodeid req.fh req.offset { buf := span.1 })
  store .slot r.span 0 w.buf
  withAnswer r rv fun _ => return { r with negErr := 0, len := w.pos }

def handleReaddir (h : FuseInHeader) (body : Span) (r : Replier) : Handler Replier :=
  withArgs r (inArg FuseReadIn.codec h body) (serveReaddir h r)

/-! ### Extended attributes -/

/-- The answer to a size query. -/
def replySize (r : Replier) (rv : Except Errc Nat) : Handler Replier :=
  withAnswer r rv fun n => replyPod FuseGetxattrOut.codec r { size := UInt32.ofNat n }

def serveGetxattr (h : FuseInHeader) (r : Replier) (args : FuseGetxattrIn × Bytes) :
    Handler Replier := do
  let (req, name) := args
  if req.size = 0 then
    let (rv, _) ← call (.getxattr (makeCtx h) h.nodeid name [])
    replySize r rv
  else
    let cap := min req.size.toNat r.cap
    let span ← load .slot r.span 0 cap
    let (rv, filled) ← call (.getxattr (makeCtx h) h.nodeid name span.1)
    store .slot r.span 0 filled.1
    replyFilled r cap rv

def handleGetxattr (h : FuseInHeader) (body : Span) (r : Replier) : Handler Replier :=
  withArgs r (parseStructName FuseGetxattrIn.codec h body) (serveGetxattr h r)

def parseSetxattr (h : FuseInHeader) (body : Span) :
    Handler (Option (FuseSetxattrIn × Bytes × Bytes)) := do
  match ← parseStructName FuseSetxattrIn.codec h body with
  | none => return none
  | some (req, name) =>
    let after := extBytes h + FuseSetxattrIn.codec.size + name.length + 1
    if body.len < after + req.size.toNat then return none
    let value ← load .scratch body after req.size.toNat
    return some (req, name, value.1)

def serveSetxattr (h : FuseInHeader) (r : Replier) (args : FuseSetxattrIn × Bytes × Bytes) :
    Handler Replier := do
  let (req, name, value) := args
  let rv ← call (.setxattr (makeCtx h) h.nodeid name value req.flags)
  replyStatus r rv

def handleSetxattr (h : FuseInHeader) (body : Span) (r : Replier) : Handler Replier :=
  withArgs r (parseSetxattr h body) (serveSetxattr h r)

def serveListxattr (h : FuseInHeader) (r : Replier) (size : UInt32) : Handler Replier := do
  if size = 0 then
    let (rv, _) ← call (.listxattr (makeCtx h) h.nodeid [])
    replySize r rv
  else
    let cap := min size.toNat r.cap
    let span ← load .slot r.span 0 cap
    let (rv, filled) ← call (.listxattr (makeCtx h) h.nodeid span.1)
    store .slot r.span 0 filled.1
    replyFilled r cap rv

def handleListxattr (h : FuseInHeader) (body : Span) (r : Replier) : Handler Replier :=
  withArgs r (inArg FuseGetxattrIn.codec h body) fun req => serveListxattr h r req.size

/-- REMOVEXATTR's name. Its siblings check `ext <= body_len` before they subtract. -/
def parseRemovexattr (h : FuseInHeader) (body : Span) : Handler (Option Bytes) :=
  cString body (extBytes h) (sizeSub body.len (extBytes h))

def serveRemovexattr (h : FuseInHeader) (r : Replier) (name : Bytes) : Handler Replier := do
  let rv ← call (.removexattr (makeCtx h) h.nodeid name)
  replyStatus r rv

def handleRemovexattr (h : FuseInHeader) (body : Span) (r : Replier) : Handler Replier :=
  withArgs r (parseRemovexattr h body) (serveRemovexattr h r)

end Fex
