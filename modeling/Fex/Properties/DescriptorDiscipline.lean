import Fex.Foundation.Ownership
import Fex.Passthrough.Store

/-!
# What a callback does with descriptors

`Held` is what one callback of the passthrough daemon has at a time: references to inodes,
descriptors and directory streams of its own, and what it may borrow for as long as it runs: the
descriptor of its file handle, the stream of its directory handle and, for SETSTATX, the
descriptor of its node. `discipline` says which steps these permit.

## Main result

`callback_keeps`: whatever the system answers, a callback uses only descriptors it has or may
borrow, closes only its own, and ends with what it began with, on every path to its end.

## Proof strategy

One rule for each scope of the programs. A descriptor that was opened is spent by what follows
(`Spends`): moved into a table or closed.
-/
namespace Fex

open Foundation Program

/-! ### What a request refers to -/

namespace Callback

/-- The handle of an open file a callback uses. -/
def file : Callback → Option FileHandle
  | setstatx _ _ fh _ | read _ _ fh _ _ | write _ _ fh _ _ | fallocate _ _ fh _ _ _ => some fh
  | _ => none

/-- The handle of an open directory a callback uses. -/
def dir : Callback → Option FileHandle
  | readdir _ _ fh _ _ => some fh
  | _ => none

/-- The node a callback names by a number in `/proc` after it has let go of it. -/
def path : Callback → Option NodeId
  | setstatx _ n _ _ => some n
  | _ => none

/-- The handle that is no longer open afterwards. -/
def closesFile : Callback → Option FileHandle
  | release _ _ fh _ => some fh
  | _ => none

def closesDir : Callback → Option FileHandle
  | releasedir _ _ fh => some fh
  | _ => none

/-- The nodes whose lookups are taken back. -/
def forgets : Callback → List NodeId
  | forget n _ => [n]
  | forgetMulti items => items.map Prod.fst
  | _ => []

end Callback

namespace Passthrough

/-! ### Holdings -/

/-- What a callback may use for as long as it runs. -/
structure Lease where
  job : Option Callback := none
  /-- the handle and what `files_` has for it -/
  file : Option (FileHandle × Option Int32) := none
  /-- the handle and what `dirs_` has for it -/
  dir : Option (FileHandle × Option Ptr) := none
  /-- the node and its `path_fd` -/
  pin : Option (NodeId × Int32) := none

/-- What it has at a time. -/
structure Held extends Lease where
  refs : List Ref := []
  fds : Set Int32 := ∅
  dirs : Set Ptr := ∅

namespace Held

variable (h : Held)

def hold (r : Ref) : Held := { h with refs := r :: h.refs }

def take (fd : Int32) : Held := { h with fds := Insert.insert fd h.fds }

def give (fd : Int32) : Held := { h with fds := h.fds \ {fd} }

def takeDir (p : Ptr) : Held := { h with dirs := Insert.insert p h.dirs }

def giveDir (p : Ptr) : Held := { h with dirs := h.dirs \ {p} }

/-- A descriptor the callback has, or may borrow. -/
def Reaches (fd : Int32) : Prop :=
  fd ∈ h.fds ∨ (∃ r ∈ h.refs, r.fd = fd) ∨ (∃ fh, h.file = some (fh, some fd)) ∨
    ∃ n, h.pin = some (n, fd)

variable {h}

theorem give_take {fd : Int32} (new : fd ∉ h.fds) : (h.take fd).give fd = h := by
  simp [take, give, new]

theorem giveDir_takeDir {p : Ptr} (new : p ∉ h.dirs) : (h.takeDir p).giveDir p = h := by
  simp [takeDir, giveDir, new]

theorem drop_hold (r : Ref) : { h.hold r with refs := (h.hold r).refs.erase r } = h := by
  simp [hold]

theorem reaches_hold (r : Ref) : (h.hold r).Reaches r.fd :=
  .inr (.inl ⟨r, List.mem_cons_self, rfl⟩)

theorem Reaches.hold {fd : Int32} (reaches : h.Reaches fd) (r : Ref) : (h.hold r).Reaches fd := by
  rcases reaches with own | ⟨r', member, is⟩ | borrowed
  · exact .inl own
  · exact .inr (.inl ⟨r', List.mem_cons_of_mem _ member, is⟩)
  · exact .inr (.inr borrowed)

theorem reaches_take (fd : Int32) : (h.take fd).Reaches fd := .inl (Set.mem_insert fd h.fds)

/-- A call that names one descriptor, or two. -/
theorem Reaches.one {fd : Int32} (reaches : h.Reaches fd) : ∀ x ∈ [fd], h.Reaches x := by
  simpa using reaches

theorem Reaches.two {a b : Int32} (first : h.Reaches a) (second : h.Reaches b) :
    ∀ x ∈ [a, b], h.Reaches x := by
  simpa using ⟨first, second⟩

end Held

/-- What a callback may do with what it holds. -/
def discipline : Discipline DaemonOp DaemonOp.Answer Held where
  may h
    | .get _ => True
    | .drop r => r ∈ h.refs
    | .insert fd _ | .close fd | .addFile fd | .fdopendir fd => fd ∈ h.fds
    | .forget n nlookup => h.job = some (.forget n nlookup)
    | .forgetMany items => h.job = some (.forgetMulti items)
    | .opens c => ∀ fd ∈ c.uses, h.Reaches fd
    | .sys c => ∀ fd ∈ c.uses, h.Reaches fd
    | .fileFd fh => ∃ v, h.file = some (fh, v)
    | .eraseFile fh => h.job.bind Callback.closesFile = some fh
    | .addDir d => d.ptr ∈ h.dirs
    | .findDir fh => ∃ v, h.dir = some (fh, v)
    | .eraseDir fh => h.job.bind Callback.closesDir = some fh
    | .walk p _ _ => ∃ fh, h.dir = some (fh, some p)
  rely h
    | .get n, answer => ∀ fd, h.pin = some (n, fd) → ∃ r, answer = some r ∧ r.fd = fd
    | .opens _, answer => ∀ fd, answer = .ok fd → fd ∉ h.fds
    | .fileFd fh, answer => h.file = some (fh, answer)
    | .fdopendir _, answer => ∀ d, answer = .ok d → d.ptr ∉ h.dirs
    | .findDir fh, answer => h.dir = some (fh, answer)
    | _, _ => True
  after h
    | .get _, some r => h.hold r
    | .drop r, _ => { h with refs := h.refs.erase r }
    | .insert fd _, taken => if taken then h.give fd else h
    | .opens _, .ok fd => h.take fd
    | .close fd, _ => h.give fd
    | .addFile fd, answer => if answer.2 then h.give fd else h
    | .fdopendir fd, .ok d => (h.give fd).takeDir d.ptr
    | .addDir d, _ => h.giveDir d.ptr
    | _, _ => h

variable {h : Held} {α β : Type}

/-- What a callback was lent does not change. -/
theorem after_lease (h : Held) (op : DaemonOp) (answer : op.Answer) :
    (discipline.after h op answer).toLease = h.toLease := by
  cases op with
  | get n => cases answer <;> rfl
  | opens c => cases answer <;> rfl
  | fdopendir fd => cases answer <;> rfl
  | insert fd stIno => cases answer <;> rfl
  | addFile fd =>
    obtain ⟨fh, free⟩ := answer
    cases free <;> rfl
  | sys c => cases c <;> rfl
  | drop | forget | forgetMany | close | fileFd | eraseFile | addDir | findDir | eraseDir
  | walk => rfl

theorem obeys_perform {op : DaemonOp} {post : op.Answer → Held → Prop} :
    (perform op).Obeys discipline post h ↔
      discipline.may h op ∧ ∀ answer, discipline.rely h op answer →
        post answer (discipline.after h op answer) := Iff.rfl

/-! ### Scopes -/

theorem keeps_sys {c : SysCall} (reaches : ∀ fd ∈ c.uses, h.Reaches fd) :
    Keeps discipline h (perform (.sys c)) := by
  refine obeys_perform.mpr ⟨reaches, fun _ _ => ?_⟩
  cases c <;> rfl

theorem keeps_andThen {p : Code (Except Errc α)} {f : α → Code (Except Errc β)}
    (first : Keeps discipline h p) (later : ∀ a, Keeps discipline h (f a)) :
    Keeps discipline h (andThen p f) := by
  refine first.bind fun answer => ?_
  cases answer with
  | error e => exact keeps_pure _
  | ok a => exact later a

/-- The end of a `shared_ptr` behind its scope. -/
theorem obeys_drop {r : Ref} {p : Code α} {post : α → Prop}
    (body : p.Obeys discipline (fun a h' => h' = h.hold r ∧ post a) (h.hold r)) :
    (do
      let answer ← p
      perform (.drop r)
      return answer : Code α).Obeys discipline (fun a h' => h' = h ∧ post a) (h.hold r) := by
  rw [obeys_bind]
  refine body.mono ?_
  rintro answer _ ⟨rfl, holds⟩
  exact ⟨List.mem_cons_self, fun _ _ => ⟨Held.drop_hold r, holds⟩⟩

/-- A scope that holds an inode, with what is known of its value. -/
theorem obeys_onInode {n : NodeId} {fail : Errc → α} {body : Ref → Code α} {post : α → Prop}
    (inner : ∀ r, (∀ fd, h.pin = some (n, fd) → r.fd = fd) →
      (body r).Obeys discipline (fun a h' => h' = h.hold r ∧ post a) (h.hold r))
    (failed : post (fail Errc.staleFileHandle)) :
    (onInode n fail body).Obeys discipline (fun a h' => h' = h ∧ post a) h := by
  rw [onInode, obeys_bind]
  refine obeys_perform.mpr ⟨trivial, fun answer relied => ?_⟩
  cases answer with
  | none => exact ⟨rfl, failed⟩
  | some r =>
    refine obeys_drop (inner r fun fd pinned => ?_)
    obtain ⟨r', is, same⟩ := relied fd pinned
    cases is
    exact same

theorem keeps_onInode {n : NodeId} {fail : Errc → α} {body : Ref → Code α}
    (inner : ∀ r, Keeps discipline (h.hold r) (body r)) :
    Keeps discipline h (onInode n fail body) := by
  have scope : (onInode n fail body).Obeys discipline (fun _ h' => h' = h ∧ True) h :=
    obeys_onInode (fun r _ => (inner r).mono fun _ _ is => ⟨is, trivial⟩) trivial
  exact scope.mono fun _ _ both => both.1

/-! ### Descriptors of one's own -/

/-- The program gets rid of `fd`, and of nothing else. -/
def Spends (h : Held) (fd : Int32) (p : Code α) : Prop :=
  p.Obeys discipline (fun _ h' => h' = h) (h.take fd)

theorem spends_close {fd : Int32} (new : fd ∉ h.fds) (value : α) :
    Spends h fd (do
      perform (.close fd)
      return value) :=
  ⟨Set.mem_insert fd h.fds, fun _ _ => Held.give_take new⟩

/-- A descriptor that was opened is spent by what follows. -/
theorem keeps_opens {c : OpenCall} {f : Int32 → Code (Except Errc α)}
    (reaches : ∀ fd ∈ c.uses, h.Reaches fd) (later : ∀ fd, fd ∉ h.fds → Spends h fd (f fd)) :
    Keeps discipline h (andThen (perform (.opens c)) f) := by
  rw [Keeps, andThen, obeys_bind]
  refine obeys_perform.mpr ⟨reaches, fun answer relied => ?_⟩
  cases answer with
  | error e => exact keeps_pure _
  | ok fd => exact later fd (relied fd rfl)

theorem spends_insert {fd : Int32} (new : fd ∉ h.fds) (stIno : UInt64) :
    Spends h fd (Code.insert fd stIno) := by
  rw [Spends, Code.insert, obeys_bind]
  refine obeys_perform.mpr ⟨Set.mem_insert fd h.fds, fun taken _ => ?_⟩
  cases taken with
  | true => exact Held.give_take new
  | false => exact spends_close new _

theorem spends_enter {cfd : Int32} (new : cfd ∉ h.fds) : Spends h cfd (Code.enter cfd) := by
  rw [Spends, Code.enter, obeys_bind]
  refine (keeps_sys (c := .fstatat cfd) (Held.reaches_take cfd).one).mono ?_
  rintro answer _ rfl
  cases answer with
  | error e => exact spends_close new _
  | ok st => exact spends_insert new st.ino

/-! ### Names and inodes -/

theorem keeps_lookupx (parent : NodeId) (name : Bytes) :
    Keeps discipline h (Code.lookupx parent name) := by
  refine keeps_onInode fun p => ?_
  rw [Keeps, obeys_bind]
  refine obeys_perform.mpr ⟨(Held.reaches_hold p).one, ?_⟩
  intro answer relied
  cases answer with
  | error e => exact keeps_pure _
  | ok cfd => exact spends_enter (relied cfd rfl)

theorem keeps_create {dir : Int32} (reaches : h.Reaches dir) (obj : MkobjxIn) :
    Keeps discipline h (Code.create dir obj) := by
  unfold Code.create
  dsimp only
  split <;> first | exact keeps_pure _ | exact keeps_sys reaches.one

theorem keeps_giveAway {dir : Int32} (reaches : h.Reaches dir) (obj : MkobjxIn) :
    Keeps discipline h (Code.giveAway dir obj) := by
  unfold Code.giveAway
  split
  · exact keeps_pure _
  · refine Keeps.bind (keeps_sys reaches.one) fun answer => ?_
    cases answer <;> exact keeps_pure _

theorem keeps_tmpfile {dir : Int32} (reaches : h.Reaches dir) (mode : UInt16) :
    Keeps discipline h (Code.tmpfile dir mode) := by
  refine keeps_opens reaches.one fun fd new => ?_
  rw [Spends, obeys_bind]
  refine (keeps_sys (c := .fstatat fd) (Held.reaches_take fd).one).mono ?_
  rintro answer _ rfl
  cases answer with
  | error e => exact spends_close new _
  | ok st =>
    -- For a while there are two descriptors, of which the first is closed.
    rw [obeys_bind]
    refine obeys_perform.mpr ⟨(Held.reaches_take fd).one, ?_⟩
    intro pfd relied
    cases pfd with
    | error e => exact spends_close new _
    | ok pfd =>
      have other : pfd ∉ (h.take fd).fds := relied pfd rfl
      have apart : pfd ∉ h.fds := fun member => other (Set.mem_insert_of_mem _ member)
      have distinct : pfd ≠ fd := fun is => other (is ▸ Set.mem_insert fd h.fds)
      refine ⟨Set.mem_insert_of_mem _ (Set.mem_insert fd h.fds), fun _ _ => ?_⟩
      have left : ((h.take fd).take pfd).give fd = h.take pfd := by
        simp only [Held.take, Held.give, Held.mk.injEq, true_and, and_true]
        ext x
        simp only [Set.mem_sdiff, Set.mem_insert_iff, Set.mem_singleton_iff]
        constructor
        · rintro ⟨rfl | rfl | old, is⟩
          · exact .inl rfl
          · exact absurd rfl is
          · exact .inr old
        · rintro (rfl | old)
          · exact ⟨.inl rfl, distinct⟩
          · exact ⟨.inr (.inr old), fun is => new (is ▸ old)⟩
      show (Code.insert pfd st.ino).Obeys discipline _ (((h.take fd).take pfd).give fd)
      rw [left]
      exact spends_insert apart st.ino

theorem keeps_mkobjx (parent : NodeId) (obj : MkobjxIn) :
    Keeps discipline h (Code.mkobjx parent obj) := by
  refine keeps_onInode fun p => ?_
  have reaches := Held.reaches_hold (h := h) p
  split
  · exact keeps_tmpfile reaches obj.stat.mode
  · refine keeps_andThen (keeps_create reaches obj) fun _ => ?_
    refine keeps_andThen (keeps_giveAway reaches obj) fun _ => ?_
    exact keeps_opens reaches.one fun _ => spends_enter

theorem keeps_onInodes {m n : NodeId} {fail : Errc → α} {body : Ref → Ref → Code α}
    (inner : ∀ r t, Keeps discipline ((h.hold r).hold t) (body r t)) :
    Keeps discipline h (Code.onInodes m n fail body) := by
  rw [Keeps, Code.onInodes, obeys_bind]
  refine obeys_perform.mpr ⟨trivial, fun answer _ => ?_⟩
  cases answer with
  | none => exact keeps_onInode fun _ => keeps_pure _
  | some r =>
    have scope : (onInode n fail (body r)).Obeys discipline
        (fun _ h' => h' = h.hold r ∧ True) (h.hold r) :=
      (keeps_onInode (inner r)).mono fun _ _ is => ⟨is, trivial⟩
    exact (obeys_drop scope).mono fun _ _ both => both.1

/-! ### Attributes -/

theorem keeps_statx (n : NodeId) : Keeps discipline h (Code.statx n) :=
  keeps_onInode fun i => keeps_sys (Held.reaches_hold i).one

theorem keeps_optional {asked : Bool} {call : Code (Except Errc Unit)}
    (keeps : Keeps discipline h call) : Keeps discipline h (Code.optional asked call) := by
  unfold Code.optional
  split
  · exact keeps
  · exact keeps_pure _

theorem keeps_change (file : FileRef) (reaches : h.Reaches (fileNumber file))
    (attrs : SetStatxIn) : Keeps discipline h (Code.change file attrs) := by
  refine keeps_andThen (keeps_optional (keeps_sys reaches.one)) fun _ => ?_
  refine keeps_andThen (keeps_optional (keeps_sys reaches.one)) fun _ => ?_
  refine keeps_andThen (keeps_optional (keeps_sys reaches.one)) fun _ => ?_
  exact keeps_optional (keeps_sys reaches.one)

/-- The path SETSTATX prints outlives its reference, so it needs the node to be pinned. -/
theorem keeps_setstatx {n : NodeId} {fh : FileHandle} {v : Option Int32} {fd : Int32}
    (file : h.file = some (fh, v)) (pinned : h.pin = some (n, fd)) (attrs : SetStatxIn) :
    Keeps discipline h (Code.setstatx n fh attrs) := by
  rw [Keeps, Code.setstatx, obeys_bind]
  refine obeys_perform.mpr ⟨⟨v, file⟩, fun answer relied => ?_⟩
  cases answer with
  | some fd =>
    have reaches : h.Reaches fd := .inr (.inr (.inl ⟨fh, relied⟩))
    exact keeps_andThen (keeps_change (.fd fd) reaches attrs) fun _ => keeps_statx n
  | none =>
    show (andThen _ _).Obeys discipline _ h
    rw [andThen, obeys_bind]
    have path : (onInode n Except.error fun i => (pure (.ok i.fd) : Code (Except Errc Int32))).Obeys
        discipline (fun a h' => h' = h ∧ ∀ x, a = .ok x → x = fd) h :=
      obeys_onInode (fun r same => ⟨rfl, fun x is => by cases is; exact same fd pinned⟩) (by simp)
    refine path.mono ?_
    rintro answer _ ⟨is, known⟩
    rw [is]
    cases answer with
    | error e => exact keeps_pure _
    | ok x =>
      have reaches : h.Reaches x := .inr (.inr (.inr ⟨n, known x rfl ▸ pinned⟩))
      exact keeps_andThen (keeps_change (.proc x) reaches attrs) fun _ => keeps_statx n

/-! ### Files and directories -/

theorem keeps_openFile (n : NodeId) (flags : UInt32) :
    Keeps discipline h (Code.openFile n flags) := by
  refine keeps_onInode fun i => keeps_opens (Held.reaches_hold i).one fun fd new => ?_
  rw [Spends, obeys_bind]
  refine obeys_perform.mpr ⟨Set.mem_insert fd _, fun answer _ => ?_⟩
  obtain ⟨fh, free⟩ := answer
  cases free with
  | true => exact Held.give_take new
  | false => exact spends_close new _

/-- An open inside the scope of an inode: the descriptor outlives the reference. -/
theorem obeys_openProc (n : NodeId) (mode : UInt32) :
    (onInode n Except.error fun i => perform (.opens (.openProc i.fd mode))).Obeys discipline
      (fun (answer : Except Errc Int32) h' => match answer with
        | .error _ => h' = h
        | .ok fd => fd ∉ h.fds ∧ h' = h.take fd) h := by
  rw [onInode, obeys_bind]
  refine obeys_perform.mpr ⟨trivial, fun answer _ => ?_⟩
  cases answer with
  | none => exact rfl
  | some r =>
    rw [obeys_bind]
    refine obeys_perform.mpr ⟨(Held.reaches_hold r).one, fun answer relied => ?_⟩
    cases answer with
    | error e => exact ⟨List.mem_cons_self, fun _ _ => Held.drop_hold r⟩
    | ok fd =>
      exact ⟨List.mem_cons_self, fun _ _ => ⟨relied fd rfl, Held.drop_hold (h := h.take fd) r⟩⟩

/-- What `io_fd` opens is closed behind the call. -/
theorem keeps_onFile {n : NodeId} {fh : FileHandle} {v : Option Int32} {mode : UInt32}
    {fail : Errc → α} {body : Int32 → Code α} (file : h.file = some (fh, v))
    (inner : ∀ h' fd, Held.Reaches h' fd → Keeps discipline h' (body fd)) :
    Keeps discipline h (Code.onFile n fh mode fail body) := by
  rw [Keeps, Code.onFile, obeys_bind]
  refine obeys_perform.mpr ⟨⟨v, file⟩, fun answer relied => ?_⟩
  cases answer with
  | some fd => exact inner h fd (.inr (.inr (.inl ⟨fh, relied⟩)))
  | none =>
    show (_ >>= _ : Code α).Obeys discipline _ h
    rw [obeys_bind]
    refine (obeys_openProc n mode).mono fun answer h' opened => ?_
    cases answer with
    | error e => exact opened
    | ok t =>
      obtain ⟨new, is⟩ := opened
      rw [is, obeys_bind]
      refine (inner _ t (Held.reaches_take t)).mono ?_
      rintro answer _ rfl
      exact spends_close new answer

theorem keeps_opendir (n : NodeId) : Keeps discipline h (Code.opendir n) := by
  refine keeps_onInode fun i => keeps_opens (Held.reaches_hold i).one fun fd new => ?_
  rw [Spends, obeys_bind]
  refine obeys_perform.mpr ⟨Set.mem_insert fd _, fun answer relied => ?_⟩
  cases answer with
  | error e => exact spends_close new _
  | ok d =>
    have fresh : d.ptr ∉ (h.hold i).dirs := relied d rfl
    refine ⟨Set.mem_insert d.ptr _, fun fh _ => ?_⟩
    show (((h.hold i).take fd).give fd |>.takeDir d.ptr).giveDir d.ptr = h.hold i
    rw [Held.give_take new, Held.giveDir_takeDir fresh]

theorem keeps_readdir {fh : FileHandle} {v : Option Ptr} (dir : h.dir = some (fh, v))
    (offset : UInt64) (writer : DirentWriter) :
    Keeps discipline h (Code.readdir fh offset writer) := by
  rw [Keeps, Code.readdir, obeys_bind]
  refine obeys_perform.mpr ⟨⟨v, dir⟩, fun answer relied => ?_⟩
  cases answer with
  | none => exact rfl
  | some d => exact ⟨⟨fh, relied⟩, fun _ _ => rfl⟩

/-! ### Extended attributes -/

theorem keeps_getxattr (n : NodeId) (name span : Bytes) :
    Keeps discipline h (Code.getxattr n name span) := by
  unfold Code.getxattr
  exact keeps_onInode fun i => keeps_sys (c := .lgetxattr i.fd _ span) (Held.reaches_hold i).one

theorem keeps_listxattr (n : NodeId) (span : Bytes) :
    Keeps discipline h (Code.listxattr n span) := by
  unfold Code.listxattr
  exact keeps_onInode fun i => keeps_sys (c := .llistxattr i.fd span) (Held.reaches_hold i).one

/-! ### Every callback -/

/-- The holdings a callback is started with: what it may borrow, and nothing of its own. -/
structure Held.Lends (h : Held) (cb : Callback) : Prop where
  job : h.job = some cb
  file : ∀ fh, cb.file = some fh → ∃ v, h.file = some (fh, v)
  dir : ∀ fh, cb.dir = some fh → ∃ v, h.dir = some (fh, v)
  pin : ∀ n, cb.path = some n → ∃ fd, h.pin = some (n, fd)

theorem callback_keeps {cb : Callback} (lends : h.Lends cb) :
    Keeps discipline h (Code.callback cb) := by
  cases cb with
  | init | lookupRoot => exact keeps_pure _
  | forget | forgetMulti => exact ⟨lends.job, fun _ _ => rfl⟩
  | lookupx _ parent name => exact keeps_lookupx parent name
  | statx _ n => exact keeps_statx n
  | setstatx _ n fh attrs =>
    obtain ⟨v, file⟩ := lends.file fh rfl
    obtain ⟨fd, pinned⟩ := lends.pin n rfl
    exact keeps_setstatx file pinned attrs
  | mkobjx _ parent obj => exact keeps_mkobjx parent obj
  | openFile _ n flags => exact keeps_openFile n flags
  | opendir _ n => exact keeps_opendir n
  -- One call on one inode.
  | unlink | rmdir | readlink | statfs | setxattr | removexattr =>
    refine keeps_onInode fun i => ?_
    exact keeps_sys (Held.reaches_hold i).one
  | getxattr _ n name span => exact keeps_getxattr n name span
  | listxattr _ n span => exact keeps_listxattr n span
  -- One call on two.
  | rename | link =>
    refine keeps_onInodes fun o n => ?_
    exact keeps_sys (((Held.reaches_hold o).hold n).two (Held.reaches_hold n))
  -- One call on an open file.
  | read _ _ fh | write _ _ fh | fallocate _ _ fh =>
    obtain ⟨v, file⟩ := lends.file fh rfl
    refine keeps_onFile file fun _ _ reaches => ?_
    exact keeps_sys reaches.one
  | readdir _ _ fh offset writer =>
    obtain ⟨v, dir⟩ := lends.dir fh rfl
    exact keeps_readdir dir offset writer
  | release _ _ fh =>
    have closes : h.job.bind Callback.closesFile = some fh := by rw [lends.job]; rfl
    exact ⟨closes, fun _ _ => rfl⟩
  | releasedir _ _ fh =>
    have closes : h.job.bind Callback.closesDir = some fh := by rw [lends.job]; rfl
    exact ⟨closes, fun _ _ => rfl⟩

end Passthrough

end Fex
