import Fex.Dispatch

/-!
# Requests: decoding separated from serving

The abstract view of a leaf dispatch: the body decodes to a `Request`, to an error
or (a truncated BATCH_FORGET) to a silent success, and only then does anything
happen to the daemon or the reply area. `dispatchLeaf_eq` connects this view to the
handlers.
-/
namespace Fex

open Foundation

inductive Request where
  | init (req : FuseInitIn)
  | lookupRoot
  | lookupx (name : Bytes)
  | forget (nlookup : UInt64)
  | batchForget (items : List (NodeId × UInt64))
  | statx
  | setstatx (args : FileHandle × SetStatxIn)
  | mkobjx (obj : MkobjxIn)
  | unlink (isRmdir : Bool) (name : Bytes)
  | rename2 (args : FuseRename2In × Bytes × Bytes)
  | link (args : FuseLinkIn × Bytes)
  | openFile (flags : UInt32)
  | release (req : FuseReleaseIn)
  | read (req : FuseReadIn)
  | write (args : FuseWriteIn × Bytes)
  | readlink
  | statfs
  | fallocate (req : FuseFallocateIn)
  | opendir
  | releasedir (fh : FileHandle)
  | readdir (req : FuseReadIn)
  | getxattr (args : FuseGetxattrIn × Bytes)
  | setxattr (args : FuseSetxattrIn × Bytes × Bytes)
  | listxattr (size : UInt32)
  | removexattr (name : Bytes)

inductive Decoded where
  | accept (q : Request)
  | reject (e : Errc)
  | ignore

/-- The errors the library itself replies with. -/
def ownErrors : List Errc :=
  [Errc.ioError, Errc.invalidArgument, Errc.functionNotSupported, Errc.operationNotSupported]

def Request.opcode : Request → Opcode
  | init _ => .init
  | lookupRoot => .lookupRoot
  | lookupx _ => .lookupx
  | forget _ => .forget
  | batchForget _ => .batchForget
  | statx => .statx
  | setstatx _ => .setstatx
  | mkobjx _ => .mkobjx
  | unlink isRmdir _ => if isRmdir then .rmdir else .unlink
  | rename2 _ => .rename2
  | link _ => .link
  | openFile _ => .openFile
  | release _ => .release
  | read _ => .read
  | write _ => .write
  | readlink => .readlink
  | statfs => .statfs
  | fallocate _ => .fallocate
  | opendir => .opendir
  | releasedir _ => .releasedir
  | readdir _ => .readdir
  | getxattr _ => .getxattr
  | setxattr _ => .setxattr
  | listxattr _ => .listxattr
  | removexattr _ => .removexattr

/-- An accepted request is of the header's opcode, a rejection carries one of the
library's own errors, and only a truncated batch is ignored. -/
def Decoded.Known (h : FuseInHeader) : Decoded → Prop
  | accept q => Opcode.ofCode h.opcode = some q.opcode
  | reject e => e ∈ ownErrors
  | ignore => Opcode.ofCode h.opcode = some .batchForget

/-- Arguments that did not parse are EINVAL. -/
def Decoded.ofArgs {α : Type} (make : α → Request) : Option α → Decoded
  | none => .reject Errc.invalidArgument
  | some args => .accept (make args)

theorem Decoded.ofArgs_total {α : Type} (make : α → Request) (args : Option α) :
    (∃ q, Decoded.ofArgs make args = .accept q) ∨
      Decoded.ofArgs make args = .reject Errc.invalidArgument := by
  cases args with
  | none => exact .inr rfl
  | some a => exact .inl ⟨make a, rfl⟩

def decode (h : FuseInHeader) (body : Span) : Handler Decoded :=
  match Opcode.ofCode h.opcode with
  | some .init => do
    match ← inArg FuseInitIn.codec h body with
    | none => return .reject Errc.invalidArgument
    | some req =>
      if kernelFlags req &&& fuseOverIoUring = 0 then return .reject Errc.operationNotSupported
      else return .accept (.init req)
  | some .lookupRoot => return .accept .lookupRoot
  | some .lookupx => .ofArgs .lookupx <$> parseName body
  | some .forget => .ofArgs (fun req => .forget req.nlookup) <$> inArg FuseForgetIn.codec h body
  | some .batchForget => do
    match ← inArg FuseBatchForgetIn.codec h body with
    | none => return .reject Errc.invalidArgument
    | some req =>
      match ← parseBatch body req.count.toNat with
      | none => return .ignore
      | some items => return .accept (.batchForget items)
  | some .statx => .ofArgs (fun _ => .statx) <$> inArg FuseStatxIn.codec h body
  | some .setstatx => .ofArgs .setstatx <$> parseSetstatx h body
  | some .mkobjx => .ofArgs .mkobjx <$> parseMkobjx h body
  | some .unlink => .ofArgs (.unlink false) <$> parseName body
  | some .rmdir => .ofArgs (.unlink true) <$> parseName body
  | some .rename2 => .ofArgs .rename2 <$> parseRename2 h body
  | some .link => .ofArgs .link <$> parseStructName FuseLinkIn.codec h body
  | some .read => .ofArgs .read <$> inArg FuseReadIn.codec h body
  | some .write => .ofArgs .write <$> parseWrite h body
  | some .readlink => return .accept .readlink
  | some .statfs => return .accept .statfs
  | some .fallocate => .ofArgs .fallocate <$> inArg FuseFallocateIn.codec h body
  | some .openFile => .ofArgs (fun req => .openFile req.flags) <$> inArg FuseOpenIn.codec h body
  | some .release => .ofArgs .release <$> inArg FuseReleaseIn.codec h body
  | some .opendir => return .accept .opendir
  | some .releasedir =>
    .ofArgs (fun req => .releasedir req.fh) <$> inArg FuseReleaseIn.codec h body
  | some .readdir => .ofArgs .readdir <$> inArg FuseReadIn.codec h body
  | some .getxattr => .ofArgs .getxattr <$> parseStructName FuseGetxattrIn.codec h body
  | some .setxattr => .ofArgs .setxattr <$> parseSetxattr h body
  | some .listxattr =>
    .ofArgs (fun req => .listxattr req.size) <$> inArg FuseGetxattrIn.codec h body
  | some .removexattr => .ofArgs .removexattr <$> parseRemovexattr h body
  | some .compound => return .reject Errc.operationNotSupported
  | none => return .reject Errc.functionNotSupported

def serve (opts : SessionOptions) (h : FuseInHeader) (r : Replier) : Request → Handler Replier
  | .init req => serveInit opts r req
  | .lookupRoot => handleLookupRoot h r
  | .lookupx name => serveLookupx h r name
  | .forget nlookup => serveForget h r nlookup
  | .batchForget items => serveForgetMulti r items
  | .statx => serveStatx h r
  | .setstatx args => serveSetstatx h r args
  | .mkobjx obj => serveMkobjx h r obj
  | .unlink isRmdir name => serveUnlink h r isRmdir name
  | .rename2 args => serveRename2 h r args
  | .link args => serveLink h r args
  | .openFile flags => serveOpen h r flags
  | .release req => serveRelease h r req
  | .read req => serveRead h r req
  | .write args => serveWrite h r args
  | .readlink => handleReadlink h r
  | .statfs => handleStatfs h r
  | .fallocate req => serveFallocate h r req
  | .opendir => handleOpendir h r
  | .releasedir fh => serveReleasedir h r fh
  | .readdir req => serveReaddir h r req
  | .getxattr args => serveGetxattr h r args
  | .setxattr args => serveSetxattr h r args
  | .listxattr size => serveListxattr h r size
  | .removexattr name => serveRemovexattr h r name

def respond (opts : SessionOptions) (h : FuseInHeader) (r : Replier) : Decoded → Handler Replier
  | .accept q => serve opts h r q
  | .reject e => return replyError r e
  | .ignore => return replyOk r

private theorem withArgs_eq {α : Type} (opts : SessionOptions) (h : FuseInHeader) (r : Replier)
    (parse : Handler (Option α)) (make : α → Request) :
    withArgs r parse (fun args => serve opts h r (make args)) =
      (Decoded.ofArgs make <$> parse) >>= respond opts h r := by
  rw [bind_map_left]
  unfold withArgs
  congr 1
  funext args
  cases args <;> rfl

/-- A leaf dispatch decodes the whole request before it serves any of it. -/
theorem dispatchLeaf_eq (opts : SessionOptions) (h : FuseInHeader) (body : Span) (r : Replier) :
    dispatchLeaf opts h body r = decode h body >>= respond opts h r := by
  unfold dispatchLeaf dispatchWith decode
  cases Opcode.ofCode h.opcode with
  | none => rfl
  | some op =>
    cases op with
    -- A kernel without the rings is refused before `fs->init`: decoding rejects it.
    | init =>
      simp only [handleInit, withArgs, bind_assoc]
      congr 1
      funext args
      cases args with
      | none => rfl
      | some req => dsimp only; split <;> rfl
    -- Two parses, one for the counter and one for the array behind it.
    | batchForget =>
      simp only [handleBatchForget, withArgs, bind_assoc]
      congr 1
      funext args
      cases args with
      | none => rfl
      | some req =>
        simp only [bind_assoc]
        congr 1
        funext batch
        cases batch <;> rfl
    | lookupx => exact withArgs_eq opts h r (parseName body) .lookupx
    | forget =>
      exact withArgs_eq opts h r (inArg FuseForgetIn.codec h body)
        fun req => .forget req.nlookup
    | statx => exact withArgs_eq opts h r (inArg FuseStatxIn.codec h body) fun _ => .statx
    | setstatx => exact withArgs_eq opts h r (parseSetstatx h body) .setstatx
    | mkobjx => exact withArgs_eq opts h r (parseMkobjx h body) .mkobjx
    | unlink => exact withArgs_eq opts h r (parseName body) (.unlink false)
    | rmdir => exact withArgs_eq opts h r (parseName body) (.unlink true)
    | rename2 => exact withArgs_eq opts h r (parseRename2 h body) .rename2
    | link => exact withArgs_eq opts h r (parseStructName _ h body) .link
    | read => exact withArgs_eq opts h r (inArg _ h body) .read
    | write => exact withArgs_eq opts h r (parseWrite h body) .write
    | fallocate => exact withArgs_eq opts h r (inArg _ h body) .fallocate
    | openFile =>
      exact withArgs_eq opts h r (inArg FuseOpenIn.codec h body)
        fun req => .openFile req.flags
    | release => exact withArgs_eq opts h r (inArg _ h body) .release
    | releasedir =>
      exact withArgs_eq opts h r (inArg FuseReleaseIn.codec h body)
        fun req => .releasedir req.fh
    | readdir => exact withArgs_eq opts h r (inArg _ h body) .readdir
    | getxattr => exact withArgs_eq opts h r (parseStructName _ h body) .getxattr
    | setxattr => exact withArgs_eq opts h r (parseSetxattr h body) .setxattr
    | listxattr =>
      exact withArgs_eq opts h r (inArg FuseGetxattrIn.codec h body)
        fun req => .listxattr req.size
    | removexattr => exact withArgs_eq opts h r (parseRemovexattr h body) .removexattr
    | lookupRoot | readlink | statfs | opendir | compound => rfl

end Fex
