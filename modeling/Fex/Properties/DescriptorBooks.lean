import Mathlib.Data.FinEnum
import Fex.Properties.DescriptorDiscipline

/-!
# Whose a descriptor is

The books of a passthrough daemon whose workers are in the middle of callbacks. Every open
descriptor is in one place: in an inode, an open file or a directory stream, with the rest of the
process, or in the hands of one worker. Every `Inode` has as many `shared_ptr`s as the table and
the workers hold, and every directory stream is in one place as well. What a running callback has
been lent is still there.

## Main results

The operations of the daemon keep the books, each in one lemma (`Books.release`, `Books.create`,
`Books.addFile`, `Books.eraseDir` and the others).

## Proof strategy

The parts of `Books` are instances of `Registry`, `Shared` and `Handles`; what an operation does
to a table is an update of one slot, and the rules for these say what becomes of the part.
-/
namespace Fex

open Foundation Program

namespace Callback

/-- `a` takes away what `b` uses. -/
def Interferes (a b : Callback) : Prop :=
  (∃ fh, a.closesFile = some fh ∧ b.file = some fh) ∨
  (∃ fh, a.closesDir = some fh ∧ b.dir = some fh) ∨
  ∃ n ∈ a.forgets, b.path = some n

-- Handles and nodes are looked up, not enumerated, as the instances for `UInt64` would.
instance (a b : Callback) : Decidable (a.Interferes b) :=
  @instDecidableOr _ _ (Option.decidableExistsMem a.closesFile)
    (@instDecidableOr _ _ (Option.decidableExistsMem a.closesDir) (List.decidableBEx _ a.forgets))

theorem not_interferes_self (a : Callback) : ¬a.Interferes a := by
  cases a <;> simp [Interferes, closesFile, closesDir, forgets, file, dir, path]

end Callback

namespace Passthrough

variable {φ ω ι : Type}

/-! ### The books -/

/-- Where a descriptor can be: in a table of the daemon, or with the rest of the process. -/
inductive Slot (others : Set Int32) where
  | inode (p : Ptr)
  | file (fh : FileHandle)
  | stream (p : Ptr)
  | other (fd : others)
  deriving DecidableEq

def slots (others : Set Int32) (s : Store ω) : Slot others → Option Int32
  | .inode p => (s.inodes p).map InodeObj.pathFd
  | .file fh => s.files fh
  | .stream p => (s.streams p).map DirObj.fd
  | .other fd => some fd

/-- Nothing is allocated at or above `next`. -/
structure Fresh (next : Ptr) (inodes : Ptr → Option InodeObj) (streams : Ptr → Option DirObj) :
    Prop where
  inode : ∀ p, next ≤ p → inodes p = none
  stream : ∀ p, next ≤ p → streams p = none

/-- What is there stays below `next` whatever becomes of it. -/
theorem Fresh.update_inode {next p : Ptr} {inodes : Ptr → Option InodeObj}
    {streams : Ptr → Option DirObj} {o : InodeObj} (fresh : Fresh next inodes streams)
    (alive : inodes p = some o) (v : Option InodeObj) :
    Fresh next (Function.update inodes p v) streams := by
  refine ⟨fun q above => ?_, fresh.stream⟩
  have other : q ≠ p := fun is => by simp [fresh.inode p (is ▸ above)] at alive
  rw [Function.update_of_ne other]
  exact fresh.inode q above

theorem Fresh.update_stream {next p : Ptr} {inodes : Ptr → Option InodeObj}
    {streams : Ptr → Option DirObj} {d : DirObj} (fresh : Fresh next inodes streams)
    (alive : streams p = some d) (v : Option DirObj) :
    Fresh next inodes (Function.update streams p v) := by
  refine ⟨fresh.inode, fun q above => ?_⟩
  have other : q ≠ p := fun is => by simp [fresh.stream p (is ▸ above)] at alive
  rw [Function.update_of_ne other]
  exact fresh.stream q above

/-- The callbacks in progress, and what they have been lent. -/
structure Jobs (leases : ι → Lease) : Prop where
  file : ∀ i, (leases i).file.map Prod.fst = (leases i).job.bind Callback.file
  dir : ∀ i, (leases i).dir.map Prod.fst = (leases i).job.bind Callback.dir
  pin : ∀ i, (leases i).pin.map Prod.fst = (leases i).job.bind Callback.path
  apart : ∀ i j a b, (leases i).job = some a → (leases j).job = some b → ¬a.Interferes b

namespace Jobs

variable {leases : ι → Lease} {i : ι}

/-- Nobody uses a handle that is being closed. -/
theorem unleased_file (jobs : Jobs leases) {fh : FileHandle}
    (closes : (leases i).job.bind Callback.closesFile = some fh) (j : ι) (v : Option Int32) :
    (leases j).file ≠ some (fh, v) := by
  intro leased
  obtain ⟨a, mine, here⟩ := Option.bind_eq_some_iff.mp closes
  have other := jobs.file j
  rw [leased] at other
  obtain ⟨b, theirs, used⟩ := Option.bind_eq_some_iff.mp other.symm
  exact jobs.apart i j a b mine theirs (.inl ⟨fh, here, used⟩)

theorem unleased_dir (jobs : Jobs leases) {fh : FileHandle}
    (closes : (leases i).job.bind Callback.closesDir = some fh) (j : ι) (v : Option Ptr) :
    (leases j).dir ≠ some (fh, v) := by
  intro leased
  obtain ⟨a, mine, here⟩ := Option.bind_eq_some_iff.mp closes
  have other := jobs.dir j
  rw [leased] at other
  obtain ⟨b, theirs, used⟩ := Option.bind_eq_some_iff.mp other.symm
  exact jobs.apart i j a b mine theirs (.inr (.inl ⟨fh, here, used⟩))

theorem unpinned (jobs : Jobs leases) {a : Callback} {n : NodeId}
    (mine : (leases i).job = some a) (forgets : n ∈ a.forgets) (j : ι) (fd : Int32) :
    (leases j).pin ≠ some (n, fd) := by
  intro pinned
  have other := jobs.pin j
  rw [pinned] at other
  obtain ⟨b, theirs, used⟩ := Option.bind_eq_some_iff.mp other.symm
  exact jobs.apart i j a b mine theirs (.inr (.inr ⟨n, forgets, used⟩))

/-- One worker has another job. -/
theorem update [DecidableEq ι] (jobs : Jobs leases) (i : ι) {lease : Lease}
    (file : lease.file.map Prod.fst = lease.job.bind Callback.file)
    (dir : lease.dir.map Prod.fst = lease.job.bind Callback.dir)
    (pin : lease.pin.map Prod.fst = lease.job.bind Callback.path)
    (apart : ∀ a, lease.job = some a → ∀ j b, (leases j).job = some b →
      ¬a.Interferes b ∧ ¬b.Interferes a) : Jobs (Function.update leases i lease) := by
  have each (p : Lease → Prop) (new : p lease) (old : ∀ j, p (leases j)) (j : ι) :
      p (Function.update leases i lease j) := by
    by_cases same : j = i
    · subst same
      rwa [Function.update_self]
    · rw [Function.update_of_ne same]
      exact old j
  refine ⟨each (fun l => l.file.map Prod.fst = l.job.bind Callback.file) file jobs.file,
    each (fun l => l.dir.map Prod.fst = l.job.bind Callback.dir) dir jobs.dir,
    each (fun l => l.pin.map Prod.fst = l.job.bind Callback.path) pin jobs.pin, ?_⟩
  intro j j' a b first second
  by_cases mine : j = i <;> by_cases mine' : j' = i
  · subst mine mine'
    rw [Function.update_self] at first second
    cases first.symm.trans second
    exact a.not_interferes_self
  · subst mine
    rw [Function.update_self] at first
    rw [Function.update_of_ne mine'] at second
    exact (apart a first j' b second).1
  · subst mine'
    rw [Function.update_of_ne mine] at first
    rw [Function.update_self] at second
    exact (apart b second j a first).2
  · rw [Function.update_of_ne mine] at first
    rw [Function.update_of_ne mine'] at second
    exact jobs.apart j j' a b first second

end Jobs

/-- The books are right. -/
structure Books [Fintype ι] (others : Set Int32) (k : Kernel φ ω) (s : Store ω) (leases : ι → Lease)
    (refs : ι → List Ref) (fds : ι → Set Int32) (dirs : ι → Set Ptr) : Prop where
  descriptors : Registry (fun fd => k.file s.system fd ≠ none) (slots others s) fds
  streams : Registry (fun p => s.streams p ≠ none) s.dirs dirs
  inodes : Shared (fun p => (s.inodes p).map InodeObj.refs) s.map fun i => (refs i).map Ref.ptr
  refs : ∀ i, ∀ r ∈ refs i, slots others s (.inode r.ptr) = some r.fd
  fresh : Fresh s.next s.inodes s.streams
  openFiles : Handles s.fileFd s.fileId fun i => (leases i).file
  openDirs : Handles s.dirs s.dirId fun i => (leases i).dir
  pins : ∀ i n fd, (leases i).pin = some (n, fd) →
    ∃ p, s.map n = some p ∧ slots others s (.inode p) = some fd
  jobs : Jobs leases

variable [Fintype ι] {others : Set Int32} {k : Kernel φ ω} {s : Store ω} {leases : ι → Lease}
  {refs : ι → List Ref} {fds : ι → Set Int32} {dirs : ι → Set Ptr}

/-! ### What an update does to the slots -/

section Slots

variable {s' : Store ω}

theorem slots_inode {p : Ptr} {v : Option InodeObj}
    (inodes : s'.inodes = Function.update s.inodes p v) (files : s'.files = s.files)
    (streams : s'.streams = s.streams) :
    slots others s' = Function.update (slots others s) (.inode p) (v.map InodeObj.pathFd) := by
  funext x
  cases x with
  | inode q =>
    by_cases same : q = p
    · subst same
      simp [slots, inodes]
    · simp [slots, inodes, same]
  | file fh => simp [slots, files]
  | stream q => simp [slots, streams]
  | other fd => simp [slots]

/-- An object that keeps its descriptor. -/
theorem slots_inode_same {p : Ptr} {o o' : InodeObj}
    (inodes : s'.inodes = Function.update s.inodes p (some o')) (files : s'.files = s.files)
    (streams : s'.streams = s.streams) (alive : s.inodes p = some o)
    (fd : o'.pathFd = o.pathFd) : slots others s' = slots others s := by
  rw [slots_inode inodes files streams, Function.update_eq_self_iff]
  simp [slots, alive, fd]

theorem slots_file {fh : FileHandle} {v : Option Int32} (inodes : s'.inodes = s.inodes)
    (files : s'.files = Function.update s.files fh v) (streams : s'.streams = s.streams) :
    slots others s' = Function.update (slots others s) (.file fh) v := by
  funext x
  cases x with
  | inode q => simp [slots, inodes]
  | file fh' =>
    by_cases same : fh' = fh
    · subst same
      simp [slots, files]
    · simp [slots, files, same]
  | stream q => simp [slots, streams]
  | other fd => simp [slots]

theorem slots_stream {p : Ptr} {v : Option DirObj} (inodes : s'.inodes = s.inodes)
    (files : s'.files = s.files) (streams : s'.streams = Function.update s.streams p v) :
    slots others s' = Function.update (slots others s) (.stream p) (v.map DirObj.fd) := by
  funext x
  cases x with
  | inode q => simp [slots, inodes]
  | file fh => simp [slots, files]
  | stream q =>
    by_cases same : q = p
    · subst same
      simp [slots, streams]
    · simp [slots, streams, same]
  | other fd => simp [slots]

theorem counts_update {inodes : Ptr → Option InodeObj} (p : Ptr) (v : Option InodeObj) :
    (fun q => (Function.update inodes p v q).map InodeObj.refs) =
      Function.update (fun q => (inodes q).map InodeObj.refs) p (v.map InodeObj.refs) :=
  Function.comp_update (Option.map InodeObj.refs) inodes p v

end Slots

/-! ### Inodes -/

/-- The last `shared_ptr` closes the descriptor, the others are only counted. -/
theorem unref_spec (k : Kernel φ ω) {p : Ptr} {o : InodeObj} (alive : s.inodes p = some o) :
    ∃ v w, s.unref k p = { s with inodes := Function.update s.inodes p v, system := w } ∧
      ((o.refs ≤ 1 ∧ v = none ∧ k.file w = Function.update (k.file s.system) o.pathFd none) ∨
        (1 < o.refs ∧ v = some { o with refs := o.refs - 1 } ∧ w = s.system)) := by
  unfold Store.unref
  rw [alive]
  by_cases last : o.refs ≤ 1
  · exact ⟨none, _, by simp [last], .inl ⟨last, rfl, k.file_close _ _⟩⟩
  · exact ⟨_, _, by simp [last], .inr ⟨by omega, rfl, rfl⟩⟩

/-- A node is forgotten in part, or for good. -/
theorem forgetLocked_cases (k : Kernel φ ω) (s : Store ω) (n : NodeId) (count : UInt64) :
    s.forgetLocked k n count = s ∨ ∃ p o nl, s.map n = some p ∧ s.inodes p = some o ∧
      let counted := { s with
        inodes := Function.update s.inodes p (some { o with nlookup := nl }) }
      s.forgetLocked k n count = counted ∨
        s.forgetLocked k n count =
          Store.unref k { counted with map := Function.update s.map n none } p := by
  unfold Store.forgetLocked
  cases mapped : s.map n with
  | none => exact .inl rfl
  | some p =>
    cases alive : s.inodes p with
    | none => simp [alive]
    | some o =>
      refine .inr ⟨p, o, if count ≥ o.nlookup then 0 else o.nlookup - count, rfl, alive, ?_⟩
      by_cases gone : (if count ≥ o.nlookup then 0 else o.nlookup - count) = 0
      · exact .inr (by simp only [alive, gone, if_true])
      · exact .inl (by simp only [alive, gone, if_false])

namespace Books

/-- The lookups of an object are no part of the books. -/
theorem recount (books : Books others k s leases refs fds dirs) {p : Ptr} {o : InodeObj}
    (alive : s.inodes p = some o) (nl : UInt64) :
    Books others k { s with inodes := Function.update s.inodes p (some { o with nlookup := nl }) }
      leases refs fds dirs := by
  have same : slots others { s with
      inodes := Function.update s.inodes p (some { o with nlookup := nl }) } = slots others s :=
    slots_inode_same rfl rfl rfl alive rfl
  have counts : (some { o with nlookup := nl }).map InodeObj.refs =
      (s.inodes p).map InodeObj.refs := by
    simp [alive]
  exact { books with
    descriptors := by rw [same]; exact books.descriptors
    inodes := by
      rw [counts_update, counts, Function.update_eq_self]
      exact books.inodes
    refs := by rw [same]; exact books.refs
    fresh := books.fresh.update_inode alive _
    pins := by rw [same]; exact books.pins }

/-- A reference is gone, and the object with it if that was the last one. -/
theorem release (books : Books others k s leases refs fds dirs) {p : Ptr} {o : InodeObj}
    (alive : s.inodes p = some o) (map' : NodeId → Option Ptr) (refs' : ι → List Ref)
    (shared : Shared (Function.update (fun q => (s.inodes q).map InodeObj.refs) p
      (if o.refs ≤ 1 then none else some (o.refs - 1))) map' fun i => (refs' i).map Ref.ptr)
    (fewer : ∀ i, ∀ r ∈ refs' i, r ∈ refs i)
    (pinned : ∀ i n fd, (leases i).pin = some (n, fd) → map' n = s.map n) :
    Books others k (Store.unref k { s with map := map' } p) leases refs' fds dirs := by
  obtain ⟨v, w, is, which⟩ := unref_spec k (s := { s with map := map' }) alive
  rw [is]
  have stored : slots others s (.inode p) = some o.pathFd := by simp [slots, alive]
  have after : slots others
      { s with inodes := Function.update s.inodes p v, map := map', system := w } =
      Function.update (slots others s) (.inode p) (v.map InodeObj.pathFd) := slots_inode rfl rfl rfl
  have counts : v.map InodeObj.refs = if o.refs ≤ 1 then none else some (o.refs - 1) := by
    rcases which with ⟨last, rfl, -⟩ | ⟨more, rfl, -⟩
    · rw [if_pos last]; rfl
    · rw [if_neg (by omega)]; rfl
  rw [← counts, ← counts_update] at shared
  -- An object that is left keeps its descriptor.
  have kept {q : Ptr} {c : Nat}
      (left : (Function.update s.inodes p v q).map InodeObj.refs = some c) :
      Function.update (slots others s) (.inode p) (v.map InodeObj.pathFd) (.inode q) =
        slots others s (.inode q) := by
    by_cases same : q = p
    · subst same
      rcases which with ⟨-, rfl, -⟩ | ⟨-, rfl, -⟩
      · simp at left
      · simp [stored]
    · simp [same]
  exact { books with
    descriptors := by
      rw [after]
      rcases which with ⟨-, rfl, closed⟩ | ⟨-, rfl, rfl⟩
      · refine books.descriptors.clear stored fun fd => ?_
        rw [closed, update_none_ne_none]
      · rw [Option.map_some, ← stored, Function.update_eq_self]
        exact books.descriptors
    inodes := shared
    refs := fun i r member => by
      obtain ⟨c, left⟩ := shared.alive_of_hand (List.mem_map_of_mem member)
      rw [after, kept left]
      exact books.refs i r (fewer i r member)
    fresh := books.fresh.update_inode alive _
    pins := fun i n fd held => by
      obtain ⟨q, mapped, descriptor⟩ := books.pins i n fd held
      have here : map' n = some q := (pinned i n fd held).trans mapped
      obtain ⟨c, left⟩ := shared.alive_of_slot here
      exact ⟨q, here, by rw [after, kept left]; exact descriptor⟩ }

theorem forgetLocked (books : Books others k s leases refs fds dirs) {n : NodeId}
    (unpinned : ∀ i fd, (leases i).pin ≠ some (n, fd)) (count : UInt64) :
    Books others k (s.forgetLocked k n count) leases refs fds dirs := by
  rcases forgetLocked_cases k s n count with is | ⟨p, o, nl, mapped, alive, is | is⟩ <;> rw [is]
  · exact books
  · exact books.recount alive nl
  · have counted := books.recount alive nl
    refine counted.release (o := { o with nlookup := nl }) (by simp) (Function.update s.map n none)
      refs ?_ (fun _ _ member => member) ?_
    · exact counted.inodes.clear (by simp) mapped
    · intro i m fd pinned
      exact Function.update_of_ne (fun same : m = n => unpinned i fd (same ▸ pinned)) _ _

theorem forget (books : Books others k s leases refs fds dirs) {n : NodeId}
    (unpinned : ∀ i fd, (leases i).pin ≠ some (n, fd)) (count : UInt64) :
    Books others k (s.forget k n count) leases refs fds dirs := by
  unfold Store.forget
  split
  · exact books
  · exact books.forgetLocked unpinned count

theorem forgetMany {items : List (NodeId × UInt64)} (books : Books others k s leases refs fds dirs)
    (unpinned : ∀ n ∈ items.map Prod.fst, ∀ i fd, (leases i).pin ≠ some (n, fd)) :
    Books others k (s.forgetMany k items) leases refs fds dirs := by
  induction items generalizing s with
  | nil => exact books
  | cons item items ih =>
    obtain ⟨n, count⟩ := item
    simp only [List.map_cons, List.forall_mem_cons] at unpinned
    exact ih (books.forget unpinned.1 count) unpinned.2

variable [DecidableEq ι] {i : ι}

/-- `get` adds a reference. -/
theorem retain (books : Books others k s leases refs fds dirs) {p : Ptr} {o : InodeObj}
    (alive : s.inodes p = some o) (i : ι) :
    Books others k
      { s with inodes := Function.update s.inodes p (some { o with refs := o.refs + 1 }) }
      leases (Function.update refs i (⟨p, o.pathFd⟩ :: refs i)) fds dirs := by
  have here : slots others s (.inode p) = some o.pathFd := by simp [slots, alive]
  have same : slots others { s with
      inodes := Function.update s.inodes p (some { o with refs := o.refs + 1 }) } =
      slots others s :=
    slots_inode_same rfl rfl rfl alive rfl
  exact { books with
    descriptors := by rw [same]; exact books.descriptors
    inodes := by
      rw [counts_update, field_update (List.map Ref.ptr)]
      exact books.inodes.retain (by simp [alive]) i
    refs := fun j r member => by
      rw [same]
      by_cases mine : j = i
      · subst mine
        simp only [Function.update_self, List.mem_cons] at member
        rcases member with rfl | old
        · exact here
        · exact books.refs j r old
      · exact books.refs j r (by simpa [mine] using member)
    fresh := books.fresh.update_inode alive _
    pins := by rw [same]; exact books.pins }

theorem drop (books : Books others k s leases refs fds dirs) {r : Ref} (mine : r ∈ refs i) :
    Books others k (s.unref k r.ptr) leases (Function.update refs i ((refs i).erase r)) fds
      dirs := by
  obtain ⟨o, alive, -⟩ := Option.map_eq_some_iff.mp (books.refs i r mine)
  refine books.release alive s.map _ ?_ (fun j q member => ?_) fun _ _ _ _ => rfl
  · rw [field_update (List.map Ref.ptr)]
    exact books.inodes.release (by simp [alive]) ((List.perm_cons_erase mine).map Ref.ptr)
  · by_cases same : j = i
    · subst same
      exact List.mem_of_mem_erase (by simpa using member)
    · simpa [same] using member

/-- A descriptor becomes an inode. -/
theorem create (books : Books others k s leases refs fds dirs) {n : NodeId} {fd : Int32}
    (mine : fd ∈ fds i) (free : s.map n = none) :
    Books others k { s with
        inodes := Function.update s.inodes s.next (some { pathFd := fd, nlookup := 1, refs := 1 })
        map := Function.update s.map n (some s.next)
        next := s.next + 1 }
      leases refs (Function.update fds i (fds i \ {fd})) dirs := by
  have new : s.inodes s.next = none := books.fresh.inode _ (Nat.le_refl _)
  have empty : slots others s (.inode s.next) = none := by simp [slots, new]
  have after : slots others { s with
      inodes := Function.update s.inodes s.next (some { pathFd := fd, nlookup := 1, refs := 1 })
      map := Function.update s.map n (some s.next)
      next := s.next + 1 } = Function.update (slots others s) (.inode s.next) (some fd) :=
    slots_inode (v := some { pathFd := fd, nlookup := 1, refs := 1 }) rfl rfl rfl
  have kept {p : Ptr} {x : Int32} (is : slots others s (.inode p) = some x) :
      Function.update (slots others s) (.inode s.next) (some fd) (.inode p) = some x := by
    have other : p ≠ s.next := fun same => by simp [same, empty] at is
    simpa [other] using is
  exact { books with
    descriptors := by
      rw [after]
      exact books.descriptors.store mine empty
    inodes := by
      rw [counts_update]
      exact books.inodes.create (by simp [new]) free
    refs := fun j r member => by
      rw [after]
      exact kept (books.refs j r member)
    fresh := ⟨fun q above => by
      have other : q ≠ s.next := Nat.ne_of_gt above
      simpa [other] using books.fresh.inode q (Nat.le_of_succ_le above),
      fun q above => books.fresh.stream q (Nat.le_of_succ_le above)⟩
    pins := fun j m x pinned => by
      obtain ⟨p, mapped, descriptor⟩ := books.pins j m x pinned
      have other : m ≠ n := fun same => by simp [same, free] at mapped
      exact ⟨p, by simpa [other] using mapped, by rw [after]; exact kept descriptor⟩ }

/-! ### Descriptors of one's own -/

omit [DecidableEq ι] in
theorem unchanged (books : Books others k s leases refs fds dirs) {w : ω}
    (same : k.file w = k.file s.system) :
    Books others k { s with system := w } leases refs fds dirs :=
  { books with descriptors := books.descriptors.congr fun fd => by rw [same] }

theorem opened (books : Books others k s leases refs fds dirs) {w : ω} {fd : Int32} {f : φ}
    (free : k.file s.system fd = none)
    (now : k.file w = Function.update (k.file s.system) fd (some f)) (i : ι) :
    Books others k { s with system := w } leases refs
      (Function.update fds i (Insert.insert fd (fds i))) dirs :=
  { books with
    descriptors := books.descriptors.acquire (not_not.mpr free)
      (fun x => by rw [now, update_some_ne_none]) i }

theorem closed (books : Books others k s leases refs fds dirs) {fd : Int32} (mine : fd ∈ fds i) :
    Books others k { s with system := k.close fd s.system } leases refs
      (Function.update fds i (fds i \ {fd})) dirs :=
  { books with
    descriptors := books.descriptors.discard mine
      fun x => by rw [k.file_close, update_none_ne_none] }

/-! ### Open files -/

omit [Fintype ι] [DecidableEq ι] in
theorem fileFd_update {s' : Store ω} {fh : FileHandle} {v : Option Int32}
    (files : s'.files = Function.update s.files fh v) (here : fh = 0 → v = none) :
    s'.fileFd = Function.update s.fileFd fh v := by
  funext x
  by_cases same : x = fh
  · subst same
    simp only [Store.fileFd, files, Function.update_self]
    split
    · exact (here ‹_›).symm
    · rfl
  · simp [Store.fileFd, files, same]

theorem addFile (books : Books others k s leases refs fds dirs) {fd : Int32} (mine : fd ∈ fds i)
    (room : s.fileId.toNat + 1 < 2 ^ 64) :
    s.files (s.fileId + 1) = none ∧
      Books others k { s with
          fileId := s.fileId + 1, files := Function.update s.files (s.fileId + 1) (some fd) }
        leases refs (Function.update fds i (fds i \ {fd})) dirs := by
  have next := Handles.toNat_next room
  have nonzero : s.fileId + 1 ≠ 0 := fun is => by rw [is] at next; simp at next
  have free : s.files (s.fileId + 1) = none := by
    simpa [Store.fileFd, nonzero] using books.openFiles.free room
  refine ⟨free, ?_⟩
  have after : slots others { s with
      fileId := s.fileId + 1, files := Function.update s.files (s.fileId + 1) (some fd) } =
      Function.update (slots others s) (.file (s.fileId + 1)) (some fd) := slots_file rfl rfl rfl
  exact { books with
    descriptors := by
      rw [after]
      exact books.descriptors.store mine free
    openFiles := by
      rw [fileFd_update (s := s) rfl fun is => absurd is nonzero]
      exact books.openFiles.add room fd }

omit [DecidableEq ι] in
theorem eraseFile (books : Books others k s leases refs fds dirs) {fh : FileHandle}
    (unleased : ∀ i v, (leases i).file ≠ some (fh, v)) :
    Books others k (s.eraseFile k fh) leases refs fds dirs := by
  unfold Store.eraseFile
  cases is : s.files fh with
  | none => exact books
  | some fd =>
    have stored : slots others s (.file fh) = some fd := is
    have after : slots others { s with
        files := Function.update s.files fh none, system := k.close fd s.system } =
        Function.update (slots others s) (.file fh) none := slots_file rfl rfl rfl
    exact { books with
      descriptors := by
        rw [after]
        refine books.descriptors.clear stored fun x => ?_
        rw [k.file_close, update_none_ne_none]
      openFiles := by
        rw [fileFd_update (s := s) rfl fun _ => rfl]
        exact books.openFiles.remove unleased }

/-! ### Open directories -/

theorem fdopendir (books : Books others k s leases refs fds dirs) {fd : Int32} (mine : fd ∈ fds i)
    (stream : DirStream) {w : ω} (same : k.file w = k.file s.system) :
    Books others k { s with
        streams := Function.update s.streams s.next (some { fd, stream })
        next := s.next + 1
        system := w }
      leases refs (Function.update fds i (fds i \ {fd}))
      (Function.update dirs i (Insert.insert s.next (dirs i))) := by
  have new : s.streams s.next = none := books.fresh.stream _ (Nat.le_refl _)
  have after : slots others { s with
      streams := Function.update s.streams s.next (some { fd, stream })
      next := s.next + 1
      system := w } = Function.update (slots others s) (.stream s.next) (some fd) :=
    slots_stream (v := some { fd, stream }) rfl rfl rfl
  exact { books with
    descriptors := by
      rw [after]
      refine (books.descriptors.store mine ?_).congr fun x => by rw [same]
      simp [slots, new]
    streams := books.streams.acquire (not_not.mpr new)
      (fun p => update_some_ne_none s.streams s.next p _) i
    fresh := ⟨fun q above => books.fresh.inode q (Nat.le_of_succ_le above), fun q above => by
      have other : q ≠ s.next := Nat.ne_of_gt above
      simpa [other] using books.fresh.stream q (Nat.le_of_succ_le above)⟩ }

theorem addDir (books : Books others k s leases refs fds dirs) {p : Ptr} (mine : p ∈ dirs i)
    (room : s.dirId.toNat + 1 < 2 ^ 64) :
    Books others k { s with
        dirId := s.dirId + 1, dirs := Function.update s.dirs (s.dirId + 1) (some p) }
      leases refs fds (Function.update dirs i (dirs i \ {p})) :=
  { books with
    streams := books.streams.store mine (books.openDirs.free room)
    openDirs := books.openDirs.add room p }

omit [DecidableEq ι] in
theorem eraseDir (books : Books others k s leases refs fds dirs) {fh : FileHandle}
    (unleased : ∀ i v, (leases i).dir ≠ some (fh, v)) :
    Books others k (s.eraseDir k fh) leases refs fds dirs := by
  unfold Store.eraseDir
  cases is : s.dirs fh with
  | none => exact books
  | some p =>
    cases stream : s.streams p with
    | none => simpa [stream] using books
    | some d =>
      simp only [stream]
      have after : slots others { s with
          streams := Function.update s.streams p none
          dirs := Function.update s.dirs fh none
          system := k.close d.fd s.system } = Function.update (slots others s) (.stream p) none :=
        slots_stream (v := none) rfl rfl rfl
      exact { books with
        descriptors := by
          rw [after]
          refine books.descriptors.clear (r := d.fd) (by simp [slots, stream]) fun x => ?_
          rw [k.file_close, update_none_ne_none]
        streams := books.streams.clear is fun q => update_none_ne_none s.streams p q
        fresh := books.fresh.update_stream stream none
        openDirs := books.openDirs.remove unleased }

omit [DecidableEq ι] in
theorem walk (books : Books others k s leases refs fds dirs) {p : Ptr} {d : DirObj}
    (alive : s.streams p = some d) (stream : DirStream) :
    Books others k { s with streams := Function.update s.streams p (some { d with stream }) }
      leases refs fds dirs := by
  have after : slots others
      { s with streams := Function.update s.streams p (some { d with stream }) } =
      Function.update (slots others s) (.stream p) (some d.fd) :=
    slots_stream (v := some { d with stream }) rfl rfl rfl
  have same := after.trans (Function.update_eq_self_iff.mpr (by simp [slots, alive]))
  exact { books with
    descriptors := by rw [same]; exact books.descriptors
    streams := books.streams.congr fun q => by
      by_cases this : q = p <;> simp [this, alive]
    refs := by rw [same]; exact books.refs
    fresh := books.fresh.update_stream alive _
    pins := by rw [same]; exact books.pins }

end Books

end Passthrough

end Fex
