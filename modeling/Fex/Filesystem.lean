import Fex.Reply

/-!
# The Filesystem interface

`Callback` is a virtual call with its arguments, `Callback.Answer` what it returns.
An output span is passed with its current contents and comes back rewritten at the
same length: a callback cannot write outside it. `Filesystem σ` is a daemon with
state `σ`; other threads acting between two calls are part of `σ`.
-/
namespace Fex

open Foundation

inductive Callback where
  | init (info : InitInfo)
  | lookupRoot (ctx : Context)
  | lookupx (ctx : Context) (parent : NodeId) (name : Bytes)
  | forget (nodeid : NodeId) (nlookup : UInt64)
  | forgetMulti (items : List (NodeId × UInt64))
  | statx (ctx : Context) (nodeid : NodeId)
  | setstatx (ctx : Context) (nodeid : NodeId) (fh : FileHandle) (attrs : SetStatxIn)
  | mkobjx (ctx : Context) (parent : NodeId) (obj : MkobjxIn)
  | unlink (ctx : Context) (parent : NodeId) (name : Bytes)
  | rmdir (ctx : Context) (parent : NodeId) (name : Bytes)
  | rename (ctx : Context) (olddir : NodeId) (oldname : Bytes) (newdir : NodeId)
      (newname : Bytes) (flags : UInt32)
  | link (ctx : Context) (oldnodeid newparent : NodeId) (newname : Bytes)
  | readlink (ctx : Context) (nodeid : NodeId)
  | openFile (ctx : Context) (nodeid : NodeId) (flags : UInt32)
  | release (ctx : Context) (nodeid : NodeId) (fh : FileHandle) (flags : UInt32)
  | read (ctx : Context) (nodeid : NodeId) (fh : FileHandle) (offset : UInt64) (span : Bytes)
  | write (ctx : Context) (nodeid : NodeId) (fh : FileHandle) (offset : UInt64) (data : Bytes)
  | fallocate (ctx : Context) (nodeid : NodeId) (fh : FileHandle) (mode : UInt32)
      (offset length : UInt64)
  | statfs (ctx : Context) (nodeid : NodeId)
  | opendir (ctx : Context) (nodeid : NodeId)
  | releasedir (ctx : Context) (nodeid : NodeId) (fh : FileHandle)
  | readdir (ctx : Context) (nodeid : NodeId) (fh : FileHandle) (offset : UInt64)
      (writer : DirentWriter)
  | getxattr (ctx : Context) (nodeid : NodeId) (name span : Bytes)
  | setxattr (ctx : Context) (nodeid : NodeId) (name value : Bytes) (flags : UInt32)
  | listxattr (ctx : Context) (nodeid : NodeId) (span : Bytes)
  | removexattr (ctx : Context) (nodeid : NodeId) (name : Bytes)

/-- What a callback that fills `span` returns: its verdict and the new contents. -/
abbrev Filled (span : Bytes) := Except Errc Nat × Blob span.length

@[reducible] def Callback.Answer : Callback → Type
  | init _ => Except Errc InitInfo
  | lookupRoot _ | lookupx .. | mkobjx .. => Except Errc EntryOut
  | forget .. | forgetMulti _ => Unit
  | statx .. | setstatx .. => Except Errc StatxOut
  | unlink .. | rmdir .. | rename .. | link .. | release .. | fallocate .. | releasedir ..
  | setxattr .. | removexattr .. => Except Errc Unit
  | readlink .. => Except Errc Bytes
  | openFile .. | opendir .. => Except Errc OpenOut
  | read _ _ _ _ span | getxattr _ _ _ span | listxattr _ _ span => Filled span
  | write .. => Except Errc Nat
  | statfs .. => Except Errc StatfsOut
  | readdir .. => Except Errc Unit × DirentWriter

structure Filesystem (σ : Type) where
  init : InitInfo → σ → Except Errc InitInfo × σ
  lookupRoot : Context → σ → Except Errc EntryOut × σ
  lookupx : Context → NodeId → Bytes → σ → Except Errc EntryOut × σ
  forget : NodeId → UInt64 → σ → σ
  forgetMulti : List (NodeId × UInt64) → σ → σ
  statx : Context → NodeId → σ → Except Errc StatxOut × σ
  setstatx : Context → NodeId → FileHandle → SetStatxIn → σ → Except Errc StatxOut × σ
  mkobjx : Context → NodeId → MkobjxIn → σ → Except Errc EntryOut × σ
  unlink : Context → NodeId → Bytes → σ → Except Errc Unit × σ
  rmdir : Context → NodeId → Bytes → σ → Except Errc Unit × σ
  rename : Context → NodeId → Bytes → NodeId → Bytes → UInt32 → σ → Except Errc Unit × σ
  link : Context → NodeId → NodeId → Bytes → σ → Except Errc Unit × σ
  readlink : Context → NodeId → σ → Except Errc Bytes × σ
  openFile : Context → NodeId → UInt32 → σ → Except Errc OpenOut × σ
  release : Context → NodeId → FileHandle → UInt32 → σ → Except Errc Unit × σ
  read : Context → NodeId → FileHandle → UInt64 → (span : Bytes) → σ → Filled span × σ
  write : Context → NodeId → FileHandle → UInt64 → Bytes → σ → Except Errc Nat × σ
  fallocate : Context → NodeId → FileHandle → UInt32 → UInt64 → UInt64 → σ → Except Errc Unit × σ
  statfs : Context → NodeId → σ → Except Errc StatfsOut × σ
  opendir : Context → NodeId → σ → Except Errc OpenOut × σ
  releasedir : Context → NodeId → FileHandle → σ → Except Errc Unit × σ
  readdir : Context → NodeId → FileHandle → UInt64 → σ → DirentScript (Except Errc Unit × σ)
  getxattr : Context → NodeId → Bytes → (span : Bytes) → σ → Filled span × σ
  setxattr : Context → NodeId → Bytes → Bytes → UInt32 → σ → Except Errc Unit × σ
  listxattr : Context → NodeId → (span : Bytes) → σ → Filled span × σ
  removexattr : Context → NodeId → Bytes → σ → Except Errc Unit × σ

namespace Filesystem

variable {σ : Type}

/-- `forget_multi` where it is not overridden: one `forget` per entry. -/
def defaultForgetMulti (forget : NodeId → UInt64 → σ → σ) (items : List (NodeId × UInt64))
    (s : σ) : σ :=
  items.foldl (fun s item => forget item.1 item.2 s) s

/-- Virtual dispatch: perform a callback. -/
def perform (fs : Filesystem σ) : (cb : Callback) → σ → cb.Answer × σ
  | .init info, s => fs.init info s
  | .lookupRoot ctx, s => fs.lookupRoot ctx s
  | .lookupx ctx parent name, s => fs.lookupx ctx parent name s
  | .forget nodeid nlookup, s => ((), fs.forget nodeid nlookup s)
  | .forgetMulti items, s => ((), fs.forgetMulti items s)
  | .statx ctx nodeid, s => fs.statx ctx nodeid s
  | .setstatx ctx nodeid fh attrs, s => fs.setstatx ctx nodeid fh attrs s
  | .mkobjx ctx parent obj, s => fs.mkobjx ctx parent obj s
  | .unlink ctx parent name, s => fs.unlink ctx parent name s
  | .rmdir ctx parent name, s => fs.rmdir ctx parent name s
  | .rename ctx olddir oldname newdir newname flags, s =>
    fs.rename ctx olddir oldname newdir newname flags s
  | .link ctx oldnodeid newparent newname, s => fs.link ctx oldnodeid newparent newname s
  | .readlink ctx nodeid, s => fs.readlink ctx nodeid s
  | .openFile ctx nodeid flags, s => fs.openFile ctx nodeid flags s
  | .release ctx nodeid fh flags, s => fs.release ctx nodeid fh flags s
  | .read ctx nodeid fh offset span, s => fs.read ctx nodeid fh offset span s
  | .write ctx nodeid fh offset data, s => fs.write ctx nodeid fh offset data s
  | .fallocate ctx nodeid fh mode offset length, s =>
    fs.fallocate ctx nodeid fh mode offset length s
  | .statfs ctx nodeid, s => fs.statfs ctx nodeid s
  | .opendir ctx nodeid, s => fs.opendir ctx nodeid s
  | .releasedir ctx nodeid fh, s => fs.releasedir ctx nodeid fh s
  | .readdir ctx nodeid fh offset writer, s =>
    let filled := (fs.readdir ctx nodeid fh offset s).fill writer
    ((filled.1.1, filled.2), filled.1.2)
  | .getxattr ctx nodeid name span, s => fs.getxattr ctx nodeid name span s
  | .setxattr ctx nodeid name value flags, s => fs.setxattr ctx nodeid name value flags s
  | .listxattr ctx nodeid span, s => fs.listxattr ctx nodeid span s
  | .removexattr ctx nodeid name, s => fs.removexattr ctx nodeid name s

/-- A daemon that refuses every request with `e`. -/
def failing (e : Errc) : Filesystem Unit where
  init _ s := (.error e, s)
  lookupRoot _ s := (.error e, s)
  lookupx _ _ _ s := (.error e, s)
  forget _ _ s := s
  forgetMulti _ s := s
  statx _ _ s := (.error e, s)
  setstatx _ _ _ _ s := (.error e, s)
  mkobjx _ _ _ s := (.error e, s)
  unlink _ _ _ s := (.error e, s)
  rmdir _ _ _ s := (.error e, s)
  rename _ _ _ _ _ _ s := (.error e, s)
  link _ _ _ _ s := (.error e, s)
  readlink _ _ s := (.error e, s)
  openFile _ _ _ s := (.error e, s)
  release _ _ _ _ s := (.error e, s)
  read _ _ _ _ span s := ((.error e, .of span), s)
  write _ _ _ _ _ s := (.error e, s)
  fallocate _ _ _ _ _ _ s := (.error e, s)
  statfs _ _ s := (.error e, s)
  opendir _ _ s := (.error e, s)
  releasedir _ _ _ s := (.error e, s)
  readdir _ _ _ _ s := pure (.error e, s)
  getxattr _ _ _ span s := ((.error e, .of span), s)
  setxattr _ _ _ _ _ s := (.error e, s)
  listxattr _ _ span s := ((.error e, .of span), s)
  removexattr _ _ _ s := (.error e, s)

/-- A daemon in which every name leads to `node`; it knows nothing but attributes. -/
def leading (node : NodeId) : Filesystem Unit :=
  { failing Errc.ioError with
    lookupRoot := fun _ s => (.ok { nodeid := node }, s)
    lookupx := fun _ _ _ s => (.ok { nodeid := node }, s)
    statx := fun _ _ s => (.ok {}, s)
    setstatx := fun _ _ _ _ s => (.ok {}, s)
    mkobjx := fun _ _ _ s => (.ok { nodeid := node }, s) }

end Filesystem

/-- The error a callback reported, if any. -/
def Callback.Answer.error? : (cb : Callback) → cb.Answer → Option Errc
  | .init _, answer => errorOf answer
  | .lookupRoot _, answer | .lookupx .., answer | .mkobjx .., answer => errorOf answer
  | .forget .., _ | .forgetMulti _, _ => none
  | .statx .., answer | .setstatx .., answer => errorOf answer
  | .unlink .., answer | .rmdir .., answer | .rename .., answer | .link .., answer
  | .release .., answer | .fallocate .., answer | .releasedir .., answer
  | .setxattr .., answer | .removexattr .., answer => errorOf answer
  | .readlink .., answer => errorOf answer
  | .openFile .., answer | .opendir .., answer => errorOf answer
  | .read .., answer | .getxattr .., answer | .listxattr .., answer => errorOf answer.1
  | .write .., answer => errorOf answer
  | .statfs .., answer => errorOf answer
  | .readdir .., answer => errorOf answer.1
where
  errorOf {α : Type} : Except Errc α → Option Errc
    | .error e => some e
    | .ok _ => none

/-- Every error this filesystem reports satisfies `allowed`. -/
def Filesystem.ErrorsSatisfy {σ : Type} (fs : Filesystem σ) (allowed : Errc → Prop) : Prop :=
  ∀ cb s e, Callback.Answer.error? cb (fs.perform cb s).1 = some e → allowed e

theorem Filesystem.leading_errorsSatisfy {allowed : Errc → Prop} (node : NodeId)
    (ok : allowed Errc.ioError) : (leading node).ErrorsSatisfy allowed := by
  intro cb s reported is
  cases cb with
  | lookupRoot | lookupx | forget | forgetMulti | statx | setstatx | mkobjx => cases is
  | _ =>
    cases is
    exact ok

end Fex
