import Fex.Passthrough.Code
import Fex.Properties.DaemonTable

/-!
# The daemon is its code

## Main result

`callback_alone`: the programs of `Code`, run by a worker that is alone and with a system on which
closing a descriptor does nothing, are the callbacks of the daemon in `Daemon`. What is shown of
that daemon is shown of the programs, and the programs say in addition who holds what and when it
is given back.

## Proof strategy

Each scope of the programs has its counterpart in the daemon: `onInode` is `inode` and what
follows, `andThen` is the bind of actions. One lemma for each carries the agreement inwards.
-/
namespace Fex

open Foundation Program

namespace Passthrough

variable {ω α β : Type} (os : System ω)

/-- The program does alone what the action does. -/
def Agrees (p : Code (Except Errc α)) (a : Action ω α) : Prop :=
  ∀ s, run (aloneStep os) p s = a s

variable {os}

theorem run_perform (op : DaemonOp) (s : Passthrough ω) :
    run (aloneStep os) (perform op) s = aloneStep os op s := rfl

theorem agrees_bind {p : Code (Except Errc α)} {a : Action ω α}
    {f : Except Errc α → Code (Except Errc β)} {g : α → Action ω β} (first : Agrees os p a)
    (ok : ∀ v, Agrees os (f (.ok v)) (g v)) (error : ∀ e, Agrees os (f (.error e)) (throw e)) :
    Agrees os (p >>= f) (a >>= g) := by
  intro s
  rw [run_bind, first s, bind_apply]
  rcases a s with ⟨_ | _, s'⟩
  · exact error _ s'
  · exact ok _ s'

theorem agrees_andThen {p : Code (Except Errc α)} {a : Action ω α}
    {f : α → Code (Except Errc β)} {g : α → Action ω β} (first : Agrees os p a)
    (rest : ∀ v, Agrees os (f v) (g v)) : Agrees os (andThen p f) (a >>= g) :=
  agrees_bind first rest fun _ _ => rfl

theorem run_onInode (n : NodeId) (fail : Errc → α) (body : Ref → Code α) (s : Passthrough ω) :
    run (aloneStep os) (onInode n fail body) s =
      match s.table.get n with
      | none => (fail Errc.staleFileHandle, s)
      | some i => run (aloneStep os) (body ⟨0, i.pathFd⟩) s := by
  rw [onInode, run_bind, run_perform, aloneStep]
  cases s.table.get n with
  | none => rfl
  | some i =>
    show run _ (body ⟨0, i.pathFd⟩ >>= fun answer => perform (.drop ⟨0, i.pathFd⟩) >>= fun _ =>
      pure answer) s = _
    rw [run_bind, run_bind]
    rfl

theorem inode_apply (n : NodeId) (s : Passthrough ω) :
    (inode n : Action ω Inode) s =
      match s.table.get n with
      | none => (.error Errc.staleFileHandle, s)
      | some i => (.ok i, s) := by
  show (match s.table.get n with
    | none => (throw Errc.staleFileHandle : Action ω Inode)
    | some i => pure i) s = _
  cases s.table.get n <;> rfl

theorem inode_bind_apply (n : NodeId) (g : Inode → Action ω α) (s : Passthrough ω) :
    (inode n >>= g) s =
      match s.table.get n with
      | none => (.error Errc.staleFileHandle, s)
      | some i => g i s := by
  rw [bind_apply, inode_apply]
  cases s.table.get n <;> rfl

theorem get_apply (s : Passthrough ω) : (get : Action ω (Passthrough ω)) s = (.ok s, s) := rfl

theorem agrees_onInode {n : NodeId} {body : Ref → Code (Except Errc α)} {g : Inode → Action ω α}
    (inner : ∀ i, Agrees os (body ⟨0, i.pathFd⟩) (g i)) :
    Agrees os (onInode n .error body) (inode n >>= g) := by
  intro s
  rw [run_onInode, inode_bind_apply]
  cases s.table.get n with
  | none => rfl
  | some i => exact inner i s

/-- Closing what was not taken over changes nothing. -/
theorem run_unless_close (taken : Bool) (fd : Int32) (answer : α) (s : Passthrough ω) :
    run (aloneStep os) (do
      unless taken do perform (.close fd)
      return answer) s = (answer, s) := by
  cases taken <;> rfl

/-! ### Names and inodes -/

theorem agrees_insert (fd : Int32) (stIno : UInt64) :
    Agrees os (Code.insert fd stIno) (do
      let n ← insert fd stIno
      return { nodeid := n, entryValid := entryTimeout }) := by
  intro s
  rw [Code.insert, run_bind, run_perform]
  exact run_unless_close _ fd _ _

theorem agrees_enter (cfd : Int32) :
    Agrees os (Code.enter cfd) (do
      let st ← sys (os.fstatat cfd)
      let n ← insert cfd st.ino
      return { nodeid := n, entryValid := entryTimeout }) :=
  agrees_bind (fun _ => rfl) (fun st => agrees_insert cfd st.ino) fun _ _ => rfl

theorem agrees_lookupx (parent : NodeId) (name : Bytes) :
    Agrees os (Code.lookupx parent name) (lookupx os parent name) := by
  refine agrees_onInode fun i s => ?_
  rw [run_bind, run_perform, bind_apply, tryCatch_apply]
  simp only [aloneStep, OpenCall.run]
  have opened : (some <$> sys (os.openat i.pathFd (cStr name)) : Action ω (Option Int32)) s =
      ((os.openat i.pathFd (cStr name) s.system).1.map some,
        { s with system := (os.openat i.pathFd (cStr name) s.system).2 }) := by
    rw [map_eq_pure_bind, bind_apply, sys]
    cases (os.openat i.pathFd (cStr name) s.system).1 <;> rfl
  rw [opened]
  cases (os.openat i.pathFd (cStr name) s.system).1 with
  | ok cfd => exact agrees_enter cfd _
  | error e =>
    show run _ (pure (if e = Errc.noSuchFileOrDirectory then _ else _)) _ = _
    simp only [Except.map]
    split
    · rfl
    · rfl

theorem agrees_create (dir : Int32) (obj : MkobjxIn) :
    Agrees os (Code.create dir obj) (create os dir obj) := by
  intro s
  unfold create
  generalize is : kind obj.stat.mode = k
  -- The two switches have the same cases; one of them is opened after the other.
  split <;> unfold Code.create <;> dsimp only <;> rw [is]
  case h_8 =>
    -- Any other kind is refused by both.
    split
    case h_8 => rfl
    all_goals exact absurd rfl (by assumption)
  all_goals rfl

/-- An unprivileged daemon goes on where it may not give the object away. -/
theorem agrees_giveAway (dir : Int32) (obj : MkobjxIn) :
    Agrees os (do
        match ← perform (.sys (.fchownat dir (cStr obj.name) obj.stat.uid obj.stat.gid)) with
        | .error e => return if e = Errc.operationNotPermitted then .ok () else .error e
        | .ok () => return .ok ())
      (tryCatch (sys (os.fchownat dir (cStr obj.name) obj.stat.uid obj.stat.gid)) fun e =>
        if e = Errc.operationNotPermitted then return else throw e) := by
  intro s
  rw [run_bind, run_perform, tryCatch_apply, sys]
  simp only [aloneStep, SysCall.run]
  cases (os.fchownat dir (cStr obj.name) obj.stat.uid obj.stat.gid s.system).1 with
  | ok => rfl
  | error e =>
    show run _ (pure (if e = Errc.operationNotPermitted then _ else _)) _ = _
    dsimp only
    split <;> rfl

theorem agrees_mkobjx (parent : NodeId) (obj : MkobjxIn) :
    Agrees os (Code.mkobjx parent obj) (mkobjx os parent obj) := by
  refine agrees_onInode fun i => ?_
  dsimp only
  by_cases tmp : obj.flags &&& kMkobjxTmpfile ≠ 0
  · rw [if_pos tmp, if_pos tmp]
    refine agrees_andThen (fun _ => rfl) fun fd => ?_
    refine agrees_bind (fun _ => rfl) (fun st => ?_) fun _ _ => rfl
    exact agrees_bind (fun _ => rfl) (fun pfd s => agrees_insert pfd st.ino s) fun _ _ => rfl
  · rw [if_neg tmp, if_neg tmp]
    refine agrees_andThen (agrees_create i.pathFd obj) fun _ => ?_
    have named : Agrees os
        (andThen (perform (.opens (.openat i.pathFd (cStr obj.name)))) Code.enter) _ :=
      agrees_andThen (fun _ => rfl) agrees_enter
    unfold Code.giveAway
    split
    · exact named
    · exact agrees_andThen (agrees_giveAway i.pathFd obj) fun _ => named

theorem agrees_unlink (parent : NodeId) (name : Bytes) (removeDir : Bool) :
    Agrees os (Code.unlink parent name removeDir) (unlink os parent name removeDir) :=
  agrees_onInode fun _ _ => rfl

theorem agrees_onInodes {m n : NodeId} {body : Ref → Ref → Code (Except Errc α)}
    {g : Inode → Inode → Action ω α}
    (inner : ∀ i j, Agrees os (body ⟨0, i.pathFd⟩ ⟨0, j.pathFd⟩) (g i j)) :
    Agrees os (Code.onInodes m n .error body) (inode m >>= fun i => inode n >>= g i) := by
  intro s
  rw [Code.onInodes, run_bind, run_perform, aloneStep, inode_bind_apply]
  cases s.table.get m with
  | none =>
    show run _ (onInode n Except.error fun _ =>
      (pure (Except.error Errc.staleFileHandle) : Code (Except Errc α))) s = _
    rw [run_onInode]
    cases s.table.get n <;> rfl
  | some i =>
    show run _ (onInode n .error (body ⟨0, i.pathFd⟩) >>= fun answer =>
      perform (.drop ⟨0, i.pathFd⟩) >>= fun _ => pure answer) s = _
    rw [run_bind, run_bind]
    exact agrees_onInode (inner i) s

theorem agrees_rename (olddir : NodeId) (oldname : Bytes) (newdir : NodeId) (newname : Bytes)
    (flags : UInt32) :
    Agrees os (Code.rename olddir oldname newdir newname flags)
      (rename os olddir oldname newdir newname flags) :=
  agrees_onInodes fun _ _ _ => rfl

theorem agrees_link (oldnodeid newparent : NodeId) (newname : Bytes) :
    Agrees os (Code.link oldnodeid newparent newname) (link os oldnodeid newparent newname) :=
  agrees_onInodes fun _ _ _ => rfl

/-! ### Attributes -/

theorem agrees_statx (n : NodeId) : Agrees os (Code.statx n) (statx os n) :=
  agrees_onInode fun _ _ => rfl

theorem andThen_assoc {γ : Type} (p : Code (Except Errc α)) (f : α → Code (Except Errc β))
    (g : β → Code (Except Errc γ)) :
    andThen (andThen p f) g = andThen p fun a => andThen (f a) g := by
  unfold andThen
  rw [LawfulMonad.bind_assoc]
  refine congrArg _ (funext fun answer => ?_)
  cases answer <;> rfl

/-- A call that is made only in some cases. -/
theorem agrees_optional {c : Prop} [Decidable c] {call : Code (Except Errc Unit)}
    {f : ω → Except Errc Unit × ω} {p : Unit → Code (Except Errc α)} {rest : Unit → Action ω α}
    (first : Agrees os call (sys f)) (later : ∀ u, Agrees os (p u) (rest u)) :
    Agrees os (andThen (Code.optional (decide c) call) p)
      (if c then sys f >>= rest else rest ()) := by
  unfold Code.optional
  by_cases asked : c
  · simp only [asked, decide_true, if_true]
    exact agrees_andThen first later
  · simp only [asked, decide_false, Bool.false_eq_true, if_false]
    exact later ()

theorem agrees_change (file : FileRef) (n : NodeId) (attrs : SetStatxIn) :
    Agrees os (andThen (Code.change file attrs) fun _ => Code.statx n) (do
      if attrs.mask &&& StatxMask.mode ≠ 0 then sys (os.chmod file attrs.mode)
      if attrs.mask &&& (StatxMask.uid ||| StatxMask.gid) ≠ 0 then
        sys (os.chown file (if attrs.mask &&& StatxMask.uid ≠ 0 then attrs.uid else 0xffffffff)
          (if attrs.mask &&& StatxMask.gid ≠ 0 then attrs.gid else 0xffffffff))
      if attrs.mask &&& StatxMask.size ≠ 0 then sys (os.truncate file attrs.size)
      if attrs.mask &&& (StatxMask.atime ||| StatxMask.mtime) ≠ 0 then
        sys (os.utimens file (if attrs.mask &&& StatxMask.atime ≠ 0 then some attrs.atime else none)
          (if attrs.mask &&& StatxMask.mtime ≠ 0 then some attrs.mtime else none))
      statx os n) := by
  unfold Code.change
  rw [andThen_assoc]
  refine agrees_optional (fun _ => rfl) fun _ => ?_
  rw [andThen_assoc]
  refine agrees_optional (fun _ => rfl) fun _ => ?_
  rw [andThen_assoc]
  refine agrees_optional (fun _ => rfl) fun _ => ?_
  exact agrees_optional (fun _ => rfl) fun _ => agrees_statx n

theorem agrees_setstatx (n : NodeId) (fh : FileHandle) (attrs : SetStatxIn) :
    Agrees os (Code.setstatx n fh attrs) (setstatx os n fh attrs) := by
  intro s
  unfold setstatx Code.setstatx
  rw [run_bind, run_perform, bind_apply, get_apply]
  simp only [aloneStep]
  cases fileFd fh s with
  | some fd => exact agrees_change (.fd fd) n attrs s
  | none =>
    show run _ (andThen _ _) s = (inode n >>= _) s
    rw [inode_bind_apply, andThen, run_bind, run_onInode]
    cases s.table.get n with
    | none => rfl
    | some i => exact agrees_change (.proc i.pathFd) n attrs s

theorem agrees_statfs (n : NodeId) : Agrees os (Code.statfs n) (statfs os n) :=
  agrees_onInode fun _ _ => rfl

/-! ### Files and directories -/

theorem agrees_openFile (n : NodeId) (flags : UInt32) :
    Agrees os (Code.openFile n flags) (openFile os n flags) := by
  refine agrees_onInode fun i => agrees_andThen (fun _ => rfl) fun fd s => ?_
  rw [run_bind, run_perform]
  exact run_unless_close _ fd _ _

/-- What follows `io_fd` is done with its descriptor, if there is one. -/
theorem run_onFile (n : NodeId) (fh : FileHandle) (mode : UInt32) (fail : Errc → α)
    (body : Int32 → Code α) (s : Passthrough ω) :
    run (aloneStep os) (Code.onFile n fh mode fail body) s =
      match ioFd os n fh mode s with
      | (.ok fd, s') => run (aloneStep os) (body fd) s'
      | (.error e, s') => (fail e, s') := by
  unfold Code.onFile ioFd
  rw [run_bind, run_perform, bind_apply, get_apply]
  simp only [aloneStep]
  cases fileFd fh s with
  | some fd => rfl
  | none =>
    have opened : Agrees os (onInode n .error fun i => perform (.opens (.openProc i.fd mode)))
        (inode n >>= fun i => sys (os.openProc i.pathFd mode)) := agrees_onInode fun _ _ => rfl
    dsimp only
    rw [run_bind, opened s]
    rcases (inode n >>= fun i => sys (os.openProc i.pathFd mode) : Action ω Int32) s with
      ⟨e | fd, s'⟩
    · rfl
    · show run _ (body fd >>= fun answer => perform (.close fd) >>= fun _ => pure answer) s' = _
      rw [run_bind, run_bind]
      rfl

theorem agrees_onFile {n : NodeId} {fh : FileHandle} {mode : UInt32}
    {body : Int32 → Code (Except Errc α)} {g : Int32 → Action ω α}
    (inner : ∀ fd, Agrees os (body fd) (g fd)) :
    Agrees os (Code.onFile n fh mode .error body) (ioFd os n fh mode >>= g) := by
  intro s
  rw [run_onFile, bind_apply]
  rcases ioFd os n fh mode s with ⟨e | fd, s'⟩
  · rfl
  · exact inner fd s'

theorem agrees_opendir (n : NodeId) : Agrees os (Code.opendir n) (opendir os n) := by
  refine agrees_onInode fun i => agrees_andThen (fun _ => rfl) fun fd s => ?_
  rw [run_bind, run_perform, bind_apply, sys]
  simp only [aloneStep]
  cases (os.fdopendir fd s.system).1 <;> rfl

theorem readdir_alone (fh : FileHandle) (offset : UInt64) (writer : DirentWriter)
    (s : Passthrough ω) :
    run (aloneStep os) (Code.readdir fh offset writer) s =
      ((((readdir fh offset s).fill writer).1.1, ((readdir fh offset s).fill writer).2),
        ((readdir fh offset s).fill writer).1.2) := by
  rw [Code.readdir, run_bind, run_perform, readdir]
  simp only [aloneStep]
  cases found : s.dirs fh with
  | none => rfl
  | some d =>
    show run _ (perform (.walk fh.toNat offset writer)) s = _
    rw [run_perform, aloneStep]
    simp only [UInt64.ofNat_toNat, found]
    rw [DirentScript.fill, DirentScript.fill, run_bind]
    rfl

/-- A callback that fills a span through an inode. -/
theorem onInode_fill {n : NodeId} {span : Bytes} {body : Ref → Code (Filled span)}
    {read : Inode → ω → Filled span × ω}
    (inner : ∀ i s, run (aloneStep os) (body ⟨0, i.pathFd⟩) s =
      ((read i s.system).1, { s with system := (read i s.system).2 })) (s : Passthrough ω) :
    run (aloneStep os) (onInode n (fun e => (.error e, .of span)) body) s =
      fill span (inode n) read s := by
  rw [run_onInode, fill, inode_apply]
  cases s.table.get n with
  | none => rfl
  | some i => exact inner i s

theorem onFile_fill {n : NodeId} {fh : FileHandle} {mode : UInt32} {span : Bytes}
    {body : Int32 → Code (Filled span)} {read : Int32 → ω → Filled span × ω}
    (inner : ∀ fd s, run (aloneStep os) (body fd) s =
      ((read fd s.system).1, { s with system := (read fd s.system).2 })) (s : Passthrough ω) :
    run (aloneStep os) (Code.onFile n fh mode (fun e => (.error e, .of span)) body) s =
      fill span (ioFd os n fh mode) read s := by
  rw [run_onFile, fill]
  rcases ioFd os n fh mode s with ⟨e | fd, s'⟩
  · rfl
  · exact inner fd s'

/-! ### All callbacks -/

/-- A worker that is alone, with a system on which closing does nothing, does what the daemon
does. -/
theorem callback_alone (os : System ω) (cb : Callback) (s : Passthrough ω) :
    run (aloneStep os) (Code.callback cb) s = (filesystem os).perform cb s := by
  cases cb with
  | init | lookupRoot | forget | forgetMulti | release | releasedir => rfl
  | lookupx ctx parent name => exact agrees_lookupx parent name s
  | statx ctx n => exact agrees_statx n s
  | setstatx ctx n fh attrs => exact agrees_setstatx n fh attrs s
  | mkobjx ctx parent obj => exact agrees_mkobjx parent obj s
  | unlink ctx parent name => exact agrees_unlink parent name false s
  | rmdir ctx parent name => exact agrees_unlink parent name true s
  | rename ctx od on nd nn flags => exact agrees_rename od on nd nn flags s
  | link ctx old new name => exact agrees_link old new name s
  | readlink ctx n => exact agrees_onInode (fun _ _ => rfl) s
  | openFile ctx n flags => exact agrees_openFile n flags s
  | read ctx n fh offset span => exact onFile_fill (fun _ _ => rfl) s
  | write ctx n fh offset data => exact agrees_onFile (fun _ _ => rfl) s
  | fallocate ctx n fh mode offset length => exact agrees_onFile (fun _ _ => rfl) s
  | statfs ctx n => exact agrees_statfs n s
  | opendir ctx n => exact agrees_opendir n s
  | readdir ctx n fh offset writer => exact readdir_alone fh offset writer s
  | getxattr ctx n name span => exact onInode_fill (fun _ _ => rfl) s
  | setxattr ctx n name value flags => exact agrees_onInode (fun _ _ => rfl) s
  | listxattr ctx n span => exact onInode_fill (fun _ _ => rfl) s
  | removexattr ctx n name => exact agrees_onInode (fun _ _ => rfl) s

end Passthrough

end Fex
