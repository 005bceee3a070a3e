import Fex.Properties.DescriptorBooks

/-!
# Descriptors among the workers of the passthrough daemon

The callbacks of several workers run step by step in any order, while files are opened, released
and forgotten.

## Main results

- `descriptors_safe`: no worker uses a descriptor that has been closed or stands for another file
  by now, an `Inode` that has been freed or a stream that has been closed, and it closes or gives
  away only what is nobody else's.
- `descriptors_accounted`: the daemon leaves the descriptors of others alone, and with no callback
  in progress it has those of its tables and no more.
- `setstatx_forget_race`: SETSTATX goes wrong if its node is forgotten meanwhile, which the kernel
  does not do. No other callback needs that.

## Proof strategy

`callback_keeps` has checked the callbacks one at a time. Here each operation that the discipline
permits is shown to keep the books (`kept_step`), which is all that `Pool.disciplined` asks for. A
number that was open before a step and is open after it refers to the same file (`step_file`), so
what a worker can use is still what it was told.
-/
namespace Fex

open Foundation Program

namespace Passthrough

variable {φ ω ι : Type} [Fintype ι] [DecidableEq ι] {others : Set Int32}
  {k : Kernel φ ω} {s : Store ω}
  {held : ι → Held} {i : ι}

/-! ### One step of one worker -/

def Accounted (others : Set Int32) (k : Kernel φ ω) (s : Store ω) (held : ι → Held) : Prop :=
  Books others k s (fun i => (held i).toLease) (fun i => (held i).refs) (fun i => (held i).fds)
    fun i => (held i).dirs

/-- The holdings of one worker change along with the store. -/
theorem Accounted.update {s' : Store ω} {h : Held} {refs : ι → List Ref} {fds : ι → Set Int32}
    {dirs : ι → Set Ptr} (books : Books others k s' (fun j => (held j).toLease) refs fds dirs)
    (lease : h.toLease = (held i).toLease)
    (refs_eq : (fun j => (Function.update held i h j).refs) = refs)
    (fds_eq : (fun j => (Function.update held i h j).fds) = fds)
    (dirs_eq : (fun j => (Function.update held i h j).dirs) = dirs) :
    Accounted others k s' (Function.update held i h) := by
  unfold Accounted
  rw [update_field Held.toLease lease, refs_eq, fds_eq, dirs_eq]
  exact books

/-- The holdings stay as they are. -/
theorem Accounted.same {s' : Store ω}
    (books : Books others k s' (fun j => (held j).toLease) (fun j => (held j).refs)
      (fun j => (held j).fds) fun j => (held j).dirs) :
    Accounted others k s' (Function.update held i (held i)) := by
  rw [Function.update_eq_self]
  exact books

/-- Only the descriptors change hands. -/
theorem Accounted.of_fds {s' : Store ω} {fds : Set Int32}
    (books : Books others k s' (fun j => (held j).toLease) (fun j => (held j).refs)
      (Function.update (fun j => (held j).fds) i fds) fun j => (held j).dirs) :
    Accounted others k s' (Function.update held i { held i with fds }) :=
  Accounted.update books rfl (update_field Held.refs rfl) (field_update Held.fds ..)
    (update_field Held.dirs rfl)

/-- What the discipline says of an operation is what the store does. -/
def Kept (others : Set Int32) (k : Kernel φ ω) (s : Store ω) (held : ι → Held) (i : ι)
    (op : DaemonOp) : Prop :=
  discipline.rely (held i) op (Store.step k op s).1 ∧
    Accounted others k (Store.step k op s).2
      (Function.update held i (discipline.after (held i) op (Store.step k op s).1))

/-! #### Inodes -/

omit [DecidableEq ι] in
theorem exists_inode (accounted : Accounted others k s held) {n : NodeId} {p : Ptr}
    (mapped : s.map n = some p) : ∃ o, s.inodes p = some o := by
  obtain ⟨c, count⟩ := accounted.inodes.alive_of_slot mapped
  obtain ⟨o, alive, -⟩ := Option.map_eq_some_iff.mp count
  exact ⟨o, alive⟩

theorem kept_get (accounted : Accounted others k s held) (n : NodeId) :
    Kept others k s held i (.get n) := by
  cases mapped : s.map n with
  | none =>
    have step : Store.step k (.get n) s = (none, s) := by simp [Store.step, Store.get, mapped]
    rw [Kept, step]
    refine ⟨fun fd pinned => ?_, Accounted.same accounted⟩
    obtain ⟨p, here, -⟩ := accounted.pins i n fd pinned
    rw [mapped] at here
    cases here
  | some p =>
    obtain ⟨o, alive⟩ := exists_inode accounted mapped
    have step : Store.step k (.get n) s = (some ⟨p, o.pathFd⟩, { s with
        inodes := Function.update s.inodes p (some { o with refs := o.refs + 1 }) }) := by
      simp [Store.step, Store.get, mapped, alive]
    rw [Kept, step]
    refine ⟨fun fd pinned => ⟨_, rfl, ?_⟩, ?_⟩
    · obtain ⟨p', here, descriptor⟩ := accounted.pins i n fd pinned
      rw [mapped] at here
      cases here
      simpa [slots, alive] using descriptor
    · exact Accounted.update (accounted.retain alive i) rfl (field_update Held.refs ..)
        (update_field Held.fds rfl) (update_field Held.dirs rfl)

theorem kept_drop (accounted : Accounted others k s held) {r : Ref} (mine : r ∈ (held i).refs) :
    Kept others k s held i (.drop r) :=
  ⟨trivial, Accounted.update (accounted.drop mine) rfl (field_update Held.refs ..)
    (update_field Held.fds rfl) (update_field Held.dirs rfl)⟩

theorem kept_insert (accounted : Accounted others k s held) {fd : Int32} (mine : fd ∈ (held i).fds)
    (stIno : UInt64) : Kept others k s held i (.insert fd stIno) := by
  cases mapped : s.map stIno with
  | none =>
    have step : Store.step k (.insert fd stIno) s = (true, { s with
        inodes := Function.update s.inodes s.next (some { pathFd := fd, nlookup := 1, refs := 1 })
        map := Function.update s.map stIno (some s.next)
        next := s.next + 1 }) := by
      simp [Store.step, Store.insert, mapped]
    rw [Kept, step]
    exact ⟨trivial, Accounted.of_fds (accounted.create mine mapped)⟩
  | some p =>
    obtain ⟨o, alive⟩ := exists_inode accounted mapped
    have step : Store.step k (.insert fd stIno) s = (false, { s with
        inodes := Function.update s.inodes p (some { o with nlookup := o.nlookup + 1 }) }) := by
      simp [Store.step, Store.insert, mapped, alive]
    rw [Kept, step]
    exact ⟨trivial, Accounted.same (accounted.recount alive (o.nlookup + 1))⟩

theorem kept_forget (accounted : Accounted others k s held) {n : NodeId} {nlookup : UInt64}
    (job : (held i).job = some (.forget n nlookup)) :
    Kept others k s held i (.forget n nlookup) := by
  have unpinned := accounted.jobs.unpinned (i := i) job (List.mem_singleton_self n)
  exact ⟨trivial, Accounted.same (accounted.forget unpinned nlookup)⟩

theorem kept_forgetMany (accounted : Accounted others k s held) {items : List (NodeId × UInt64)}
    (job : (held i).job = some (.forgetMulti items)) :
    Kept others k s held i (.forgetMany items) := by
  have unpinned (n : NodeId) (member : n ∈ items.map Prod.fst) :=
    accounted.jobs.unpinned (i := i) job member
  exact ⟨trivial, Accounted.same (accounted.forgetMany unpinned)⟩

/-! #### Descriptors -/

theorem kept_opens (accounted : Accounted others k s held) (c : OpenCall) :
    Kept others k s held i (.opens c) := by
  cases answer : (c.run k.toSystem s.system).1 with
  | error e =>
    have step : Store.step k (.opens c) s =
        (.error e, { s with system := (c.run k.toSystem s.system).2 }) := by
      rw [← answer]
      rfl
    rw [Kept, step]
    refine ⟨by rintro _ ⟨⟩, ?_⟩
    exact Accounted.same (accounted.unchanged (k.file_unopened c s.system e answer))
  | ok fd =>
    have step : Store.step k (.opens c) s =
        (.ok fd, { s with system := (c.run k.toSystem s.system).2 }) := by
      rw [← answer]
      rfl
    obtain ⟨free, f, now⟩ := k.file_opened c s.system fd answer
    rw [Kept, step]
    refine ⟨fun x is => ?_, Accounted.of_fds (accounted.opened free now i)⟩
    cases is
    exact fun mine => accounted.descriptors.live_of_hand mine free

theorem kept_sys (accounted : Accounted others k s held) (c : SysCall) :
    Kept others k s held i (.sys c) := by
  have same : discipline.after (held i) (.sys c) (Store.step k (.sys c) s).1 = held i := by
    cases c <;> rfl
  refine ⟨by cases c <;> trivial, ?_⟩
  rw [same]
  exact Accounted.same (accounted.unchanged (k.file_sys c s.system))

theorem kept_close (accounted : Accounted others k s held) {fd : Int32}
    (mine : fd ∈ (held i).fds) : Kept others k s held i (.close fd) :=
  ⟨trivial, Accounted.of_fds (accounted.closed mine)⟩

/-! #### Open files -/

theorem kept_fileFd (accounted : Accounted others k s held) {fh : FileHandle}
    (mine : ∃ v, (held i).file = some (fh, v)) : Kept others k s held i (.fileFd fh) := by
  obtain ⟨v, lease⟩ := mine
  have here := (accounted.openFiles.leased i fh v lease).2
  refine ⟨?_, Accounted.same accounted⟩
  show (held i).file = some (fh, s.fileFd fh)
  rw [here]
  exact lease

theorem kept_addFile (accounted : Accounted others k s held) {fd : Int32} (mine : fd ∈ (held i).fds)
    (room : s.fileId.toNat + 1 < 2 ^ 64) : Kept others k s held i (.addFile fd) := by
  obtain ⟨free, added⟩ := accounted.addFile mine room
  have step : Store.step k (.addFile fd) s = ((s.fileId + 1, true), { s with
      fileId := s.fileId + 1
      files := Function.update s.files (s.fileId + 1) (some fd) }) := by
    simp [Store.step, Store.addFile, free]
  rw [Kept, step]
  exact ⟨trivial, Accounted.of_fds added⟩

theorem kept_eraseFile (accounted : Accounted others k s held) {fh : FileHandle}
    (closes : (held i).job.bind Callback.closesFile = some fh) :
    Kept others k s held i (.eraseFile fh) :=
  ⟨trivial, Accounted.same (accounted.eraseFile (accounted.jobs.unleased_file (i := i) closes))⟩

/-! #### Open directories -/

theorem kept_fdopendir (accounted : Accounted others k s held) {fd : Int32}
    (mine : fd ∈ (held i).fds) : Kept others k s held i (.fdopendir fd) := by
  have same := k.file_fdopendir fd s.system
  rcases answer : k.fdopendir fd s.system with ⟨e | dir, w⟩
  · have step : Store.step k (.fdopendir fd) s = (.error e, { s with system := w }) := by
      simp [Store.step, Store.fdopendir, answer]
    rw [answer] at same
    rw [Kept, step]
    exact ⟨by rintro _ ⟨⟩, Accounted.same (accounted.unchanged same)⟩
  · have step : Store.step k (.fdopendir fd) s = (.ok ⟨s.next, dir⟩, { s with
        streams := Function.update s.streams s.next (some { fd, stream := { dir } })
        next := s.next + 1
        system := w }) := by
      simp [Store.step, Store.fdopendir, answer]
    rw [answer] at same
    rw [Kept, step]
    refine ⟨fun d is => ?_, ?_⟩
    · cases is
      exact fun member => accounted.streams.live_of_hand member
        (accounted.fresh.stream s.next (Nat.le_refl _))
    · exact Accounted.update (accounted.fdopendir mine { dir } same) rfl
        (update_field Held.refs rfl) (field_update Held.fds ..) (field_update Held.dirs ..)

theorem kept_addDir (accounted : Accounted others k s held) {d : DirPtr}
    (mine : d.ptr ∈ (held i).dirs) (room : s.dirId.toNat + 1 < 2 ^ 64) :
    Kept others k s held i (.addDir d) :=
  ⟨trivial, Accounted.update (accounted.addDir mine room) rfl (update_field Held.refs rfl)
    (update_field Held.fds rfl) (field_update Held.dirs ..)⟩

theorem kept_findDir (accounted : Accounted others k s held) {fh : FileHandle}
    (mine : ∃ v, (held i).dir = some (fh, v)) : Kept others k s held i (.findDir fh) := by
  obtain ⟨v, lease⟩ := mine
  have here := (accounted.openDirs.leased i fh v lease).2
  refine ⟨?_, Accounted.same accounted⟩
  show (held i).dir = some (fh, s.dirs fh)
  rw [here]
  exact lease

theorem kept_eraseDir (accounted : Accounted others k s held) {fh : FileHandle}
    (closes : (held i).job.bind Callback.closesDir = some fh) :
    Kept others k s held i (.eraseDir fh) :=
  ⟨trivial, Accounted.same (accounted.eraseDir (accounted.jobs.unleased_dir (i := i) closes))⟩

theorem kept_walk (accounted : Accounted others k s held) (p : Ptr) (off : UInt64)
    (writer : DirentWriter) : Kept others k s held i (.walk p off writer) := by
  refine ⟨trivial, Accounted.same ?_⟩
  show Books others k (s.walk p off writer).2 _ _ _ _
  unfold Store.walk
  cases alive : s.streams p with
  | none => exact accounted
  | some d => exact accounted.walk alive _

/-- Whatever a worker may do, the books are right afterwards. -/
theorem kept_step (accounted : Accounted others k s held) {op : DaemonOp}
    (may : discipline.may (held i) op) (files : s.fileId.toNat + 1 < 2 ^ 64)
    (dirs : s.dirId.toNat + 1 < 2 ^ 64) : Kept others k s held i op := by
  cases op with
  | get n => exact kept_get accounted n
  | drop r => exact kept_drop accounted may
  | insert fd stIno => exact kept_insert accounted may stIno
  | forget n nlookup => exact kept_forget accounted may
  | forgetMany items => exact kept_forgetMany accounted may
  | opens c => exact kept_opens accounted c
  | sys c => exact kept_sys accounted c
  | close fd => exact kept_close accounted may
  | fileFd fh => exact kept_fileFd accounted may
  | addFile fd => exact kept_addFile accounted may files
  | eraseFile fh => exact kept_eraseFile accounted may
  | fdopendir fd => exact kept_fdopendir accounted may
  | addDir d => exact kept_addDir accounted may dirs
  | findDir fh => exact kept_findDir accounted may
  | eraseDir fh => exact kept_eraseDir accounted may
  | walk p off writer => exact kept_walk accounted p off writer

/-! ### Numbers and what they refer to -/

omit [DecidableEq ι] in
/-- What a worker may use is open. -/
theorem reaches_live (accounted : Accounted others k s held) {fd : Int32}
    (reaches : (held i).Reaches fd) : k.file s.system fd ≠ none := by
  rcases reaches with own | ⟨r, member, rfl⟩ | ⟨fh, lease⟩ | ⟨n, pinned⟩
  · exact accounted.descriptors.live_of_hand own
  · exact accounted.descriptors.live_of_slot (accounted.refs i r member)
  · have here : s.fileFd fh = some fd := (accounted.openFiles.leased i fh _ lease).2
    have stored : slots others s (.file fh) = some fd := by
      rw [Store.fileFd] at here
      split at here
      · cases here
      · exact here
    exact accounted.descriptors.live_of_slot stored
  · obtain ⟨p, -, stored⟩ := accounted.pins i n fd pinned
    exact accounted.descriptors.live_of_slot stored

theorem Held.Reaches.of_subset {h h' : Held} {fd : Int32} (reaches : h'.Reaches fd)
    (fds : h'.fds ⊆ h.fds) (refs : h'.refs ⊆ h.refs) (lease : h'.toLease = h.toLease) :
    h.Reaches fd := by
  rcases reaches with own | ⟨r, member, is⟩ | ⟨fh, file⟩ | ⟨n, pin⟩
  · exact .inl (fds own)
  · exact .inr (.inl ⟨r, refs member, is⟩)
  · exact .inr (.inr (.inl ⟨fh, by rw [← lease]; exact file⟩))
  · exact .inr (.inr (.inr ⟨n, by rw [← lease]; exact pin⟩))

/-- A worker that may use a number could do so before, or has just been told it. -/
theorem reaches_after {h : Held} {op : DaemonOp} {answer : op.Answer} {fd : Int32}
    (reaches : (discipline.after h op answer).Reaches fd) :
    h.Reaches fd ∨ op.learns answer = some fd := by
  cases op with
  | get n =>
    cases answer with
    | none => exact .inl reaches
    | some r =>
      rcases reaches with own | ⟨r', member, is⟩ | borrowed
      · exact .inl (.inl own)
      · rcases List.mem_cons.mp member with rfl | old
        · exact .inr (congrArg some is)
        · exact .inl (.inr (.inl ⟨r', old, is⟩))
      · exact .inl (.inr (.inr borrowed))
  | opens c =>
    cases answer with
    | error e => exact .inl reaches
    | ok x =>
      rcases reaches with own | borrowed
      · rcases Set.mem_insert_iff.mp own with rfl | old
        · exact .inr rfl
        · exact .inl (.inl old)
      · exact .inl (.inr borrowed)
  | drop r => exact .inl (reaches.of_subset subset_rfl List.erase_subset rfl)
  | close x => exact .inl (reaches.of_subset Set.sdiff_subset (List.Subset.refl _) rfl)
  | insert x stIno =>
    cases answer with
    | false => exact .inl reaches
    | true => exact .inl (reaches.of_subset Set.sdiff_subset (List.Subset.refl _) rfl)
  | addFile x =>
    obtain ⟨fh, free⟩ := answer
    cases free with
    | false => exact .inl reaches
    | true => exact .inl (reaches.of_subset Set.sdiff_subset (List.Subset.refl _) rfl)
  | fdopendir x =>
    cases answer with
    | error e => exact .inl reaches
    | ok d => exact .inl (reaches.of_subset Set.sdiff_subset (List.Subset.refl _) rfl)
  | addDir d => exact .inl (reaches.of_subset subset_rfl (List.Subset.refl _) rfl)
  | sys c => cases c <;> exact .inl reaches
  | forget | forgetMany | fileFd | eraseFile | findDir | eraseDir | walk => exact .inl reaches

/-- Nothing happens to the open files but that some are closed. -/
def Closes (k : Kernel φ ω) (w w' : ω) : Prop :=
  ∀ fd, k.file w' fd = k.file w fd ∨ k.file w' fd = none

theorem Closes.refl (k : Kernel φ ω) (w : ω) : Closes k w w := fun _ => .inl rfl

theorem Closes.trans {w w' w'' : ω} (first : Closes k w w') (second : Closes k w' w'') :
    Closes k w w'' := by
  intro fd
  rcases second fd with same | gone
  · rw [same]
    exact first fd
  · exact .inr gone

theorem closes_close (fd : Int32) (w : ω) : Closes k w (k.close fd w) := by
  intro x
  rw [k.file_close]
  by_cases here : x = fd
  · subst here
    exact .inr (Function.update_self ..)
  · exact .inl (Function.update_of_ne here ..)

theorem closes_unref (s : Store ω) (p : Ptr) : Closes k s.system (s.unref k p).system := by
  unfold Store.unref
  split
  · exact .refl k _
  · split
    · exact closes_close _ _
    · exact .refl k _

theorem closes_forget (s : Store ω) (n : NodeId) (nlookup : UInt64) :
    Closes k s.system (s.forget k n nlookup).system := by
  unfold Store.forget
  split
  · exact .refl k _
  · rcases forgetLocked_cases k s n nlookup with is | ⟨p, o, nl, -, -, is | is⟩ <;> rw [is]
    · exact .refl k _
    · exact .refl k _
    · exact closes_unref _ p

theorem closes_forgetMany (s : Store ω) (items : List (NodeId × UInt64)) :
    Closes k s.system (s.forgetMany k items).system := by
  induction items generalizing s with
  | nil => exact .refl k _
  | cons item items ih => exact (closes_forget s _ _).trans (ih _)

/-- A number that was open and still is refers to the same file. -/
theorem step_file (op : DaemonOp) {fd : Int32} (before : k.file s.system fd ≠ none)
    (after : k.file (Store.step k op s).2.system fd ≠ none) :
    k.file (Store.step k op s).2.system fd = k.file s.system fd := by
  have of_closes (closes : Closes k s.system (Store.step k op s).2.system) :
      k.file (Store.step k op s).2.system fd = k.file s.system fd :=
    (closes fd).resolve_right after
  cases op with
  | opens c =>
    cases answer : (c.run k.toSystem s.system).1 with
    | error e => exact congrFun (k.file_unopened c s.system e answer) fd
    | ok x =>
      obtain ⟨free, f, now⟩ := k.file_opened c s.system x answer
      have other : fd ≠ x := fun is => before (is ▸ free)
      exact (congrFun now fd).trans (Function.update_of_ne other ..)
  | sys c => exact congrFun (k.file_sys c s.system) fd
  | fdopendir x =>
    have same := k.file_fdopendir x s.system
    refine of_closes fun y => .inl ?_
    simp only [Store.step, Store.fdopendir]
    split <;> rename_i is <;> rw [is] at same <;> exact congrFun same y
  | drop r => exact of_closes (closes_unref s r.ptr)
  | forget n nlookup => exact of_closes (closes_forget s n nlookup)
  | forgetMany items => exact of_closes (closes_forgetMany s items)
  | close x => exact of_closes (closes_close x s.system)
  | eraseFile fh =>
    refine of_closes ?_
    simp only [Store.step, Store.eraseFile]
    split
    · exact .refl k _
    · exact closes_close _ _
  | eraseDir fh =>
    refine of_closes ?_
    simp only [Store.step, Store.eraseDir]
    split
    · exact .refl k _
    · split
      · exact .refl k _
      · exact closes_close _ _
  | get n =>
    simp only [Store.step, Store.get]
    split <;> [rfl; split <;> rfl]
  | insert x stIno =>
    simp only [Store.step, Store.insert]
    split <;> [rfl; split <;> rfl]
  | addFile x =>
    simp only [Store.step, Store.addFile]
    split <;> rfl
  | walk p off writer =>
    simp only [Store.step, Store.walk]
    split <;> rfl
  | fileFd | addDir | findDir => rfl

/-- A number a worker may use refers to the file it was when the worker was told it. -/
def Knows (k : Kernel φ ω) (s : Store ω) (held : ι → Held) (memory : ι → Known φ) : Prop :=
  ∀ i fd f, (held i).Reaches fd → memory i fd = some f → k.file s.system fd = some f

theorem Knows.step {memory : ι → Known φ} (knows : Knows k s held memory)
    (before : Accounted others k s held) {op : DaemonOp} (kept : Kept others k s held i op) :
    Knows k (Store.step k op s).2
      (Function.update held i (discipline.after (held i) op (Store.step k op s).1))
      (Function.update memory i
        (k.learn op (Store.step k op s).1 (Store.step k op s).2.system (memory i))) := by
  intro j fd f reaches known
  have after := reaches_live kept.2 reaches
  -- Unless the worker has just been told the number, it could use it before the step as well.
  have old (could : (held j).Reaches fd) (was : memory j fd = some f) :
      k.file (Store.step k op s).2.system fd = some f := by
    have live := reaches_live before could
    rw [step_file op live after]
    exact knows j fd f could was
  by_cases same : j = i
  · subst same
    rw [Function.update_self] at reaches known
    unfold Kernel.learn at known
    rcases reaches_after reaches with could | told
    · cases learns : op.learns (Store.step k op s).1 with
      | none =>
        rw [learns] at known
        exact old could known
      | some x =>
        rw [learns] at known
        by_cases here : fd = x
        · subst here
          simpa using known
        · exact old could (by simpa [here] using known)
    · rw [told] at known
      simpa using known
  · rw [Function.update_of_ne same] at reaches known
    exact old reaches known

/-! ### Runs -/

/-- What the kernel keeps to: it passes handles it was given, it closes no handle that is in use,
and SETSTATX is for a node that is in the table and not forgotten meanwhile. The handles have not
run out. -/
def Orderly (s : DaemonPool ι φ ω) : PoolAction ι Callback → Prop
  | .call _ cb =>
    (∀ fh, cb.file = some fh → fh.toNat ≤ s.shared.fileId.toNat) ∧
    (∀ fh, cb.dir = some fh → fh.toNat ≤ s.shared.dirId.toNat) ∧
    (∀ n, cb.path = some n → s.shared.map n ≠ none) ∧
    ∀ j other, Pool.current s.history j = some other →
      ¬cb.Interferes other ∧ ¬other.Interferes cb
  | .step _ => s.shared.fileId.toNat + 1 < 2 ^ 64 ∧ s.shared.dirId.toNat + 1 < 2 ^ 64
  | .finish _ => True

instance (s : DaemonPool ι φ ω) (a : PoolAction ι Callback) : Decidable (Orderly s a) :=
  match a with
  | .call _ cb =>
    @instDecidableAnd _ _ (Option.decidableForallMem cb.file)
      (@instDecidableAnd _ _ (Option.decidableForallMem cb.dir)
        (@instDecidableAnd _ _ (Option.decidableForallMem cb.path)
          (@Fintype.decidableForallFintype _ _
            (fun j => Option.decidableForallMem (Pool.current s.history j)) _)))
  | .step _ => inferInstanceAs (Decidable (_ ∧ _))
  | .finish _ => .isTrue trivial

/-- What a callback is lent. -/
def Store.lease (s : Store ω) (cb : Callback) : Lease where
  job := some cb
  file := cb.file.map fun fh => (fh, s.fileFd fh)
  dir := cb.dir.map fun fh => (fh, s.dirs fh)
  pin := cb.path.bind fun n => (s.map n).bind fun p =>
    (s.inodes p).map fun o => (n, o.pathFd)

/-- The books, and what the workers and the rest of the process know. -/
structure Sound (others : Set Int32) (k : Kernel φ ω) (w : ω) (s : Store ω) (held : ι → Held)
    (memory : ι → Known φ) : Prop where
  accounted : Accounted others k s held
  knows : Knows k s held memory
  untouched : ∀ fd ∈ others, k.file s.system fd = k.file w fd

theorem Sound.step {w : ω} {memory : ι → Known φ} (sound : Sound others k w s held memory)
    {op : DaemonOp} (kept : Kept others k s held i op) :
    Sound others k w (Store.step k op s).2
      (Function.update held i (discipline.after (held i) op (Store.step k op s).1))
      (Function.update memory i
        (k.learn op (Store.step k op s).1 (Store.step k op s).2.system (memory i))) where
  accounted := kept.2
  knows := sound.knows.step sound.accounted kept
  untouched fd foreign := by
    have slot (s : Store ω) : slots others s (.other ⟨fd, foreign⟩) = some fd := rfl
    have before := sound.accounted.descriptors.live_of_slot (slot s)
    have after := kept.2.descriptors.live_of_slot (slot _)
    rw [step_file op before after]
    exact sound.untouched fd foreign

omit [Fintype ι] [DecidableEq ι] in
theorem jobs_idle : Jobs fun _ : ι => ({} : Lease) where
  file _ := rfl
  dir _ := rfl
  pin _ := rfl
  apart := by simp

theorem slots_start (others : Set Int32) (backing : Int32) (w : ω) (x : Slot others) (fd : Int32) :
    slots others (Store.start backing w) x = some fd ↔
      (x = .inode 0 ∧ fd = backing) ∨ ∃ foreign : fd ∈ others, x = .other ⟨fd, foreign⟩ := by
  cases x with
  | inode p =>
    by_cases here : p = 0
    · subst here
      simp [slots, Store.start, eq_comm]
    · simp [slots, Store.start, here]
  | file fh => simp [slots, Store.start]
  | stream p => simp [slots, Store.start]
  | other y =>
    obtain ⟨y, foreign⟩ := y
    simp only [slots, Option.some.injEq, reduceCtorEq, false_and, false_or, Slot.other.injEq,
      Subtype.mk.injEq, exists_prop]
    exact ⟨fun is => ⟨is ▸ foreign, is⟩, fun is => is.2⟩

omit [DecidableEq ι] in
/-- The daemon as it is started, with the backing directory as its only descriptor. -/
theorem accounted_start {backing : Int32} {w : ω} (mine : backing ∉ others)
    (opened : ∀ fd, k.file w fd ≠ none ↔ fd = backing ∨ fd ∈ others) :
    Accounted others k (Store.start backing w) (fun _ : ι => {}) where
  descriptors := by
    constructor
    · intro fd
      refine (opened fd).trans ?_
      simp only [slots_start]
      constructor
      · rintro (rfl | foreign)
        · exact .inl ⟨.inode 0, .inl ⟨rfl, rfl⟩⟩
        · exact .inl ⟨.other ⟨fd, foreign⟩, .inr ⟨foreign, rfl⟩⟩
      · rintro (⟨x, ⟨-, is⟩ | ⟨foreign, -⟩⟩ | ⟨i, held⟩)
        · exact .inl is
        · exact .inr foreign
        · exact absurd held (Set.notMem_empty fd)
    · intro x y fd first second
      rw [slots_start] at first second
      rcases first with ⟨rfl, rfl⟩ | ⟨foreign, rfl⟩ <;>
        rcases second with ⟨rfl, is⟩ | ⟨foreign', rfl⟩
      · rfl
      · exact absurd foreign' mine
      · exact absurd (is ▸ foreign) mine
      · rfl
    · simp
    · simp
  streams := ⟨by simp [Store.start], by simp [Store.start], by simp, by simp⟩
  inodes := by
    have created := (Shared.empty (R := Ptr) (κ := NodeId) (ι := ι)).create (r := 0)
      (x := NodeId.root) rfl rfl
    rw [Store.start, counts_update]
    exact created
  refs := by simp
  fresh := by
    constructor
    · intro p above
      have other : p ≠ 0 := Nat.ne_of_gt above
      simp [Store.start, other]
    · intro p _
      rfl
  openFiles := ⟨by simp [Store.start, Store.fileFd], by simp⟩
  openDirs := ⟨by simp [Store.start], by simp⟩
  pins := by simp
  jobs := jobs_idle

/-- A worker without anything of its own is lent something else. -/
theorem Accounted.relet (accounted : Accounted others k s held) (lease : Lease)
    (refs : (held i).refs = []) (fds : (held i).fds = ∅) (dirs : (held i).dirs = ∅)
    (file : ∀ fh v, lease.file = some (fh, v) → fh.toNat ≤ s.fileId.toNat ∧ s.fileFd fh = v)
    (dir : ∀ fh v, lease.dir = some (fh, v) → fh.toNat ≤ s.dirId.toNat ∧ s.dirs fh = v)
    (pin : ∀ n fd, lease.pin = some (n, fd) →
      ∃ p, s.map n = some p ∧ slots others s (.inode p) = some fd)
    (jobs : Jobs (Function.update (fun j => (held j).toLease) i lease)) :
    Accounted others k s (Function.update held i { toLease := lease }) := by
  unfold Accounted
  rw [field_update Held.toLease, update_field Held.refs refs.symm, update_field Held.fds fds.symm,
    update_field Held.dirs dirs.symm]
  exact { accounted with
    openFiles := by
      rw [field_update Lease.file]
      exact accounted.openFiles.relet i file
    openDirs := by
      rw [field_update Lease.dir]
      exact accounted.openDirs.relet i dir
    pins := fun j n fd pinned => by
      by_cases same : j = i
      · subst same
        rw [Function.update_self] at pinned
        exact pin n fd pinned
      · rw [Function.update_of_ne same] at pinned
        exact accounted.pins j n fd pinned
    jobs := jobs }

/-- A callback begins: it is lent what it refers to. -/
theorem accounted_call {s : DaemonPool ι φ ω} {cb : Callback}
    (accounted : Accounted others k s.shared held)
    (jobs : ∀ j, (held j).job = Pool.current s.history j) (idle : held i = {})
    (orderly : Orderly s (.call i cb)) :
    Accounted others k s.shared (Function.update held i { toLease := s.shared.lease cb }) ∧
      Held.Lends { toLease := s.shared.lease cb } cb := by
  obtain ⟨files, dirs, paths, apart⟩ := orderly
  -- The node of SETSTATX has an object.
  have named {n : NodeId} (path : cb.path = some n) : ∃ p o, s.shared.map n = some p ∧
      s.shared.inodes p = some o ∧ (s.shared.lease cb).pin = some (n, o.pathFd) := by
    obtain ⟨p, mapped⟩ := Option.ne_none_iff_exists'.mp (paths n path)
    obtain ⟨o, alive⟩ := exists_inode accounted mapped
    exact ⟨p, o, mapped, alive, by simp [Store.lease, path, mapped, alive]⟩
  refine ⟨accounted.relet _ (by rw [idle]) (by rw [idle]) (by rw [idle]) ?_ ?_ ?_ ?_, ?_⟩
  · intro fh v is
    simp only [Store.lease, Option.map_eq_some_iff, Prod.mk.injEq] at is
    obtain ⟨_, used, rfl, rfl⟩ := is
    exact ⟨files _ used, rfl⟩
  · intro fh v is
    simp only [Store.lease, Option.map_eq_some_iff, Prod.mk.injEq] at is
    obtain ⟨_, used, rfl, rfl⟩ := is
    exact ⟨dirs _ used, rfl⟩
  · intro n fd is
    obtain ⟨m, path, -⟩ := Option.bind_eq_some_iff.mp is
    obtain ⟨p, o, mapped, alive, pinned⟩ := named path
    rw [pinned] at is
    cases is
    exact ⟨p, mapped, by simp [slots, alive]⟩
  · refine accounted.jobs.update i ?_ ?_ ?_ ?_
    · simp [Store.lease, Function.comp_def]
    · simp [Store.lease, Function.comp_def]
    · cases path : cb.path with
      | none => simp [Store.lease, path]
      | some n =>
        obtain ⟨p, o, -, -, pinned⟩ := named path
        rw [pinned]
        simp [Store.lease, path]
    · intro a is j b other
      cases is
      exact apart j b ((jobs j).symm.trans other)
  · refine ⟨rfl, fun fh used => ?_, fun fh used => ?_, fun n path => ?_⟩
    · exact ⟨s.shared.fileFd fh, by simp [Store.lease, used]⟩
    · exact ⟨s.shared.dirs fh, by simp [Store.lease, used]⟩
    · obtain ⟨p, o, -, -, pinned⟩ := named path
      exact ⟨_, pinned⟩

/-- The holdings at the end of a callback. -/
def Held.Spent (h : Held) : Prop := h.refs = [] ∧ h.fds = ∅ ∧ h.dirs = ∅

theorem accounted_finish (accounted : Accounted others k s held) (spent : (held i).Spent) :
    Accounted others k s (Function.update held i {}) := by
  obtain ⟨refs, fds, dirs⟩ := spent
  refine accounted.relet {} refs fds dirs (by simp) (by simp) (by simp) ?_
  exact accounted.jobs.update i rfl rfl rfl (by simp)

theorem callback_obeys {cb : Callback} {h : Held} (lends : h.Lends cb) (spent : h.Spent) :
    ((⟨cb, ·⟩) <$> Code.callback cb : Code (Σ cb : Callback, cb.Answer)).Obeys discipline
      (fun _ h' => h'.Spent) h := by
  rw [map_eq_pure_bind, obeys_bind]
  refine (callback_keeps lends).mono ?_
  rintro answer h' is
  exact is ▸ spent

/-- However the workers of an orderly daemon are interleaved, its books are right. -/
theorem sound_of_reachable {backing : Int32} {w : ω} (mine : backing ∉ others)
    (opened : ∀ fd, k.file w fd ≠ none ↔ fd = backing ∨ fd ∈ others) {s : DaemonPool ι φ ω}
    (reachable : (daemonWorkers k (Store.start backing w)).ReachableBy Orderly s) :
    ∃ held memory, Sound others k w s.shared held memory ∧
      Pool.Disciplined discipline (fun _ h => h.Spent) (fun h => h.job) {} s held memory := by
  refine Pool.disciplined rfl ?_ (fun _ => none) ?_ ?_ ?_ ?_ reachable
  · intro h op answer
    rw [after_lease]
  · refine ⟨accounted_start mine opened, ?_, fun _ _ => rfl⟩
    intro i fd f _ known
    cases known
  · intro s held memory i cb orderly sound jobs idle
    obtain ⟨accounted, lends⟩ := accounted_call sound.accounted jobs idle orderly
    refine ⟨{ toLease := s.shared.lease cb }, rfl, ⟨accounted, ?_, sound.untouched⟩,
      callback_obeys lends ⟨rfl, rfl, rfl⟩⟩
    intro j fd f reaches known
    by_cases same : j = i
    · subst same
      rw [Function.update_self] at known
      cases known
    · rw [Function.update_of_ne same] at reaches known
      exact sound.knows j fd f reaches known
  · intro s held memory i op orderly sound may
    have kept := kept_step sound.accounted may orderly.1 orderly.2
    exact ⟨kept.1, sound.step kept⟩
  · intro s held memory i value sound spent
    refine ⟨accounted_finish sound.accounted spent, ?_, sound.untouched⟩
    intro j fd f reaches known
    by_cases same : j = i
    · subst same
      rw [Function.update_self] at reaches
      simp [Held.Reaches] at reaches
    · rw [Function.update_of_ne same] at reaches
      exact sound.knows j fd f reaches known

/-! ### Main results -/

/-- The number is open, and refers to what it did when the worker was told it. -/
def Current (k : Kernel φ ω) (m : Known φ) (s : Store ω) (fd : Int32) : Prop :=
  ∃ f, k.file s.system fd = some f ∧ ∀ g, m fd = some g → g = f

/-- An operation that uses nothing that is gone, and gives away or closes nothing that is kept
elsewhere. -/
def Safe (others : Set Int32) (k : Kernel φ ω) (m : Known φ) (s : Store ω) : DaemonOp → Prop
  | .opens c => ∀ fd ∈ c.uses, Current k m s fd
  | .sys c => ∀ fd ∈ c.uses, Current k m s fd
  | .insert fd _ | .close fd | .addFile fd | .fdopendir fd =>
    Current k m s fd ∧ ∀ x, slots others s x ≠ some fd
  | .drop r => ∃ o, s.inodes r.ptr = some o ∧ o.pathFd = r.fd
  | .addDir d => s.streams d.ptr ≠ none ∧ ∀ fh, s.dirs fh ≠ some d.ptr
  | .walk p _ _ => s.streams p ≠ none
  | _ => True

omit [DecidableEq ι] in
theorem Sound.current {w : ω} {memory : ι → Known φ} (sound : Sound others k w s held memory)
    {fd : Int32} (reaches : (held i).Reaches fd) : Current k (memory i) s fd := by
  obtain ⟨f, is⟩ := Option.ne_none_iff_exists'.mp (reaches_live sound.accounted reaches)
  refine ⟨f, is, fun g known => ?_⟩
  have same := sound.knows i fd g reaches known
  rw [is] at same
  exact (Option.some.inj same).symm

omit [DecidableEq ι] in
theorem Sound.safe {w : ω} {memory : ι → Known φ} (sound : Sound others k w s held memory)
    {op : DaemonOp} (may : discipline.may (held i) op) : Safe others k (memory i) s op := by
  have own {fd : Int32} (mine : fd ∈ (held i).fds) :
      Current k (memory i) s fd ∧ ∀ x, slots others s x ≠ some fd :=
    ⟨sound.current (.inl mine), fun x stored =>
      sound.accounted.descriptors.apart x i fd stored mine⟩
  cases op with
  | opens c => exact fun fd used => sound.current (may fd used)
  | sys c => exact fun fd used => sound.current (may fd used)
  | insert fd stIno => exact own may
  | close fd => exact own may
  | addFile fd => exact own may
  | fdopendir fd => exact own may
  | drop r =>
    obtain ⟨o, alive, is⟩ := Option.map_eq_some_iff.mp (sound.accounted.refs i r may)
    exact ⟨o, alive, is⟩
  | addDir d =>
    exact ⟨sound.accounted.streams.live_of_hand may, fun fh stored =>
      sound.accounted.streams.apart fh i d.ptr stored may⟩
  | walk p off writer =>
    obtain ⟨fh, lease⟩ := may
    have here := (sound.accounted.openDirs.leased i fh _ lease).2
    exact sound.accounted.streams.live_of_slot here
  | get | forget | forgetMany | fileFd | eraseFile | findDir | eraseDir => trivial

/-! ### A small kernel -/

/-- Two descriptors can be opened at a time, and every file is node 7. -/
def smallSystem : System (Int32 → Option Unit) where
  openat _ _ := openSmall
  openTmpfile _ _ := openSmall
  openProc _ _ := openSmall
  fstatat _ w := (.ok { ino := 7 }, w)
  mknodat _ _ _ _ w := (.ok (), w)
  mkdirat _ _ _ w := (.ok (), w)
  symlinkat _ _ _ w := (.ok (), w)
  fchownat _ _ _ _ w := (.ok (), w)
  unlinkat _ _ _ w := (.ok (), w)
  renameat2 _ _ _ _ _ w := (.ok (), w)
  linkat _ _ _ w := (.ok (), w)
  readlinkat _ w := (.ok [], w)
  pread _ span _ w := ((.ok 0, .of span), w)
  pwrite _ data _ w := (.ok data.length, w)
  fstatvfs _ w := (.ok {}, w)
  fallocate _ _ _ _ w := (.ok (), w)
  chmod _ _ w := (.ok (), w)
  chown _ _ _ w := (.ok (), w)
  truncate _ _ w := (.ok (), w)
  utimens _ _ _ w := (.ok (), w)
  fdopendir _ w := (.error Errc.ioError, w)
  lgetxattr _ _ span w := ((.ok 0, .of span), w)
  lsetxattr _ _ _ _ w := (.ok (), w)
  llistxattr _ span w := ((.ok 0, .of span), w)
  lremovexattr _ _ w := (.ok (), w)
where
  openSmall (w : Int32 → Option Unit) : Except Errc Int32 × (Int32 → Option Unit) :=
    match w 4, w 5 with
    | none, _ => (.ok 4, Function.update w 4 (some ()))
    | some (), none => (.ok 5, Function.update w 5 (some ()))
    | some (), some () => (.error Errc.ioError, w)

def smallKernel : Kernel Unit (Int32 → Option Unit) where
  toSystem := smallSystem
  close fd w := Function.update w fd none
  file w := w
  file_close _ _ := rfl
  file_opened c w fd answer := by
    have run : c.run smallSystem w = smallSystem.openSmall w := by cases c <;> rfl
    rw [run] at answer ⊢
    unfold smallSystem.openSmall at answer ⊢
    cases four : w 4 with
    | none =>
      rw [four] at answer
      cases answer
      exact ⟨four, (), rfl⟩
    | some f =>
      cases five : w 5 with
      | none =>
        rw [four, five] at answer
        cases answer
        exact ⟨five, (), rfl⟩
      | some g =>
        rw [four, five] at answer
        cases answer
  file_unopened c w e answer := by
    have run : c.run smallSystem w = smallSystem.openSmall w := by cases c <;> rfl
    rw [run] at answer ⊢
    unfold smallSystem.openSmall at answer ⊢
    cases four : w 4 with
    | none =>
      rw [four] at answer
      cases answer
    | some f =>
      cases five : w 5 with
      | none =>
        rw [four, five] at answer
        cases answer
      | some g => rfl
  file_sys c w := by cases c <;> rfl
  file_fdopendir _ _ := rfl

/-- The backing directory is 3, and the standard streams are there as well. -/
def smallStart : DaemonPool Bool Unit (Int32 → Option Unit) where
  shared := Store.start 3 fun fd => if fd = 3 ∨ fd = 0 ∨ fd = 1 ∨ fd = 2 then some () else none

theorem smallStart_opened (fd : Int32) :
    smallKernel.file smallStart.shared.system fd ≠ none ↔
      fd = 3 ∨ fd ∈ ({0, 1, 2} : Set Int32) := by
  show (if fd = 3 ∨ fd = 0 ∨ fd = 1 ∨ fd = 2 then some () else none) ≠ none ↔ _
  split <;> simp_all

/-- Two workers look the same file up: both have opened it when the first one enters it. -/
def crossingActions : List (PoolAction Bool Callback) :=
  [.call false (.lookupx {} 1 [97]), .call true (.lookupx {} 1 [97]), .step false, .step true,
    .step false, .step true, .step false, .step true, .step false]

/-- However the workers are interleaved, no callback uses a descriptor that was closed or stands
for another file by now, an inode that was freed or a directory stream that was closed. -/
theorem descriptors_safe {backing : Int32} {w : ω} (mine : backing ∉ others)
    (opened : ∀ fd, k.file w fd ≠ none ↔ fd = backing ∨ fd ∈ others) {s : DaemonPool ι φ ω}
    (reachable : (daemonWorkers k (Store.start backing w)).ReachableBy Orderly s) {i : ι}
    {op : DaemonOp} {next : op.Answer → Code (Σ cb : Callback, cb.Answer)} {m : Known φ}
    (running : s.threads i = some (.request op next, m)) : Safe others k m s.shared op := by
  obtain ⟨held, memory, sound, disciplined⟩ := sound_of_reachable mine opened reachable
  obtain ⟨⟨may, -⟩, rfl⟩ := disciplined.obeys i _ m running
  exact sound.safe may

/-- The second worker is about to enter the file with a descriptor of its own. -/
theorem descriptors_safe_crossing :
    ∃ (s : DaemonPool Bool Unit (Int32 → Option Unit)) (next : Bool → _) (m : Known Unit),
      s.threads false ≠ none ∧ s.threads true = some (.request (.insert 5 7) next, m) ∧
      Safe {0, 1, 2} smallKernel m s.shared (.insert 5 7) := by
  obtain ⟨s, ends, next, m, busy, running⟩ :
      ∃ s, (daemonWorkers smallKernel smallStart.shared).exec smallStart crossingActions = some s ∧
        ∃ next m, s.threads false ≠ none ∧ s.threads true = some (.request (.insert 5 7) next, m) :=
    ⟨_, rfl, _, _, nofun, rfl⟩
  have reachable : (daemonWorkers smallKernel smallStart.shared).ReachableBy Orderly s :=
    .exec_permitted (.start rfl) (by decide +kernel) ends
  exact ⟨s, next, m, busy, running, descriptors_safe (by simp) smallStart_opened reachable running⟩

/-- A run in which FORGET comes while SETSTATX has only the number left. -/
def raceActions : List (PoolAction Bool Callback) :=
  [.call false (.lookupx {} 1 []), .step false, .step false, .step false, .step false, .step false,
    .finish false, .call false (.setstatx {} 7 0 { mask := StatxMask.mode }), .step false,
    .step false, .step false, .call true (.forget 7 1), .step true]

/-- What the kernel keeps to is needed: `setstatx` gives its `shared_ptr` back before it uses the
path it printed from it. -/
theorem setstatx_forget_race :
    ∃ s : DaemonPool Bool Unit (Int32 → Option Unit),
      (daemonWorkers smallKernel smallStart.shared).Reachable s ∧
      ∃ next m, s.threads false = some (.request (.sys (.chmod (.proc 4) 0)) next, m) ∧
        ¬Safe {0, 1, 2} smallKernel m s.shared (.sys (.chmod (.proc 4) 0)) := by
  obtain ⟨s, ends, next, m, running, closed⟩ :
      ∃ s, (daemonWorkers smallKernel smallStart.shared).exec smallStart raceActions = some s ∧
        ∃ next m, s.threads false = some (.request (.sys (.chmod (.proc 4) 0)) next, m) ∧
          smallKernel.file s.shared.system 4 = none :=
    ⟨_, rfl, _, _, rfl, rfl⟩
  refine ⟨s, .exec (.start rfl) raceActions (fun _ _ _ => trivial) ends, next, m, running, ?_⟩
  intro safe
  obtain ⟨f, is, -⟩ := safe 4 (List.mem_singleton_self 4)
  rw [closed] at is
  cases is

/-- A descriptor of an inode in the table, of an open file or of an open directory. -/
def Stored (s : Store ω) (fd : Int32) : Prop :=
  (∃ n p o, s.map n = some p ∧ s.inodes p = some o ∧ o.pathFd = fd) ∨
  (∃ fh, s.files fh = some fd) ∨
  ∃ fh p d, s.dirs fh = some p ∧ s.streams p = some d ∧ d.fd = fd

/-- The descriptors of others are left alone; and with no callback in progress, the daemon has
those of its tables and no more. -/
theorem descriptors_accounted {backing : Int32} {w : ω} (mine : backing ∉ others)
    (opened : ∀ fd, k.file w fd ≠ none ↔ fd = backing ∨ fd ∈ others) {s : DaemonPool ι φ ω}
    (reachable : (daemonWorkers k (Store.start backing w)).ReachableBy Orderly s) :
    (∀ fd ∈ others, k.file s.shared.system fd = k.file w fd) ∧
    ((∀ i, s.threads i = none) → ∀ fd, k.file s.shared.system fd ≠ none ↔
      fd ∈ others ∨ Stored s.shared fd) := by
  obtain ⟨held, memory, sound, disciplined⟩ := sound_of_reachable mine opened reachable
  refine ⟨sound.untouched, fun quiet fd => ?_⟩
  have idle (i : ι) : held i = {} := disciplined.absent i (quiet i)
  refine (sound.accounted.descriptors.claimed fd).trans ⟨?_, ?_⟩
  · rintro (⟨x, stored⟩ | ⟨i, owned⟩)
    · cases x with
      | inode p =>
        obtain ⟨o, alive, is⟩ := Option.map_eq_some_iff.mp stored
        obtain ⟨n, mapped⟩ := sound.accounted.inodes.slot_of_alive (r := p) (c := o.refs)
          (by simp [alive]) (by simp [idle])
        exact .inr (.inl ⟨n, p, o, mapped, alive, is⟩)
      | file fh => exact .inr (.inr (.inl ⟨fh, stored⟩))
      | stream p =>
        obtain ⟨d, alive, is⟩ := Option.map_eq_some_iff.mp stored
        rcases (sound.accounted.streams.claimed p).mp (by simp [alive]) with ⟨fh, here⟩ | ⟨i, owned⟩
        · exact .inr (.inr (.inr ⟨fh, p, d, here, alive, is⟩))
        · simp [idle] at owned
      | other y => exact .inl (by cases stored; exact y.2)
    · simp [idle] at owned
  · rintro (foreign | ⟨n, p, o, -, alive, is⟩ | ⟨fh, stored⟩ | ⟨fh, p, d, -, alive, is⟩)
    · exact .inl ⟨.other ⟨fd, foreign⟩, rfl⟩
    · exact .inl ⟨.inode p, by simp [slots, alive, is]⟩
    · exact .inl ⟨.file fh, stored⟩
    · exact .inl ⟨.stream p, by simp [slots, alive, is]⟩

/-- Both have answered: one descriptor is in the table, the other one is closed. -/
theorem descriptors_accounted_crossing :
    ∃ s : DaemonPool Bool Unit (Int32 → Option Unit), (∀ i, s.threads i = none) ∧
      smallKernel.file s.shared.system 4 = some () ∧ smallKernel.file s.shared.system 5 = none ∧
      (∀ fd ∈ ({0, 1, 2} : Set Int32),
        smallKernel.file s.shared.system fd = smallKernel.file smallStart.shared.system fd) ∧
      ∀ fd, smallKernel.file s.shared.system fd ≠ none ↔
        fd ∈ ({0, 1, 2} : Set Int32) ∨ Stored s.shared fd := by
  let actions := crossingActions ++ [.step true, .step false, .step true, .step true,
    .finish true, .finish false]
  obtain ⟨s, ends, quiet, kept, closed⟩ :
      ∃ s, (daemonWorkers smallKernel smallStart.shared).exec smallStart actions = some s ∧
        (∀ i, s.threads i = none) ∧ smallKernel.file s.shared.system 4 = some () ∧
        smallKernel.file s.shared.system 5 = none := by
    refine ⟨_, rfl, fun i => ?_, rfl, rfl⟩
    cases i <;> rfl
  have reachable : (daemonWorkers smallKernel smallStart.shared).ReachableBy Orderly s :=
    .exec_permitted (.start rfl) (by decide +kernel) ends
  obtain ⟨untouched, stored⟩ := descriptors_accounted (by simp) smallStart_opened reachable
  exact ⟨s, quiet, kept, closed, untouched, stored quiet⟩

end Passthrough

end Fex
