import Fex.Execution
import Fex.Passthrough.Daemon
import Fex.Properties.InodeCounts

/-!
# The daemon's use of its inode table

## Main result

`daemon_counts_lookups`: whatever requests the passthrough daemon serves, the table holds the
nodes of which the kernel has more lookups than it has taken back, each with the difference, as
long as the kernel never takes back more than it has. What the kernel has is the entries the
daemon replied with, and what it takes back is what FORGET and BATCH_FORGET say.

## Proof strategy

Every callback is a sequence of steps that leave the table alone (`Quiet`), but for the `insert`
at the end of `lookupx` and `mkobjx` (`Enters`). One lemma per combinator carries both through
the callbacks, and `perform_performs` collects them: a callback is at most one operation on the
table. A handler is a sequence of callbacks (`run_follows`), a lifetime one of handlers, and its
operations are what `entriesExact` counts.
-/
namespace Fex

open Foundation Program

namespace Passthrough

variable {ω α β : Type}

/-! ### Steps that leave the table alone -/

theorem bind_apply (a : Action ω α) (f : α → Action ω β) (s : Passthrough ω) :
    (a >>= f) s =
      match a s with
      | (.ok value, s') => f value s'
      | (.error e, s') => (.error e, s') := by
  rcases result : a s with ⟨answer, s'⟩
  have unfolded : (a >>= f) s = ExceptT.bindCont f (a s).1 (a s).2 := rfl
  rw [unfolded, result]
  cases answer <;> rfl

theorem tryCatch_apply (a : Action ω α) (handle : Errc → Action ω α) (s : Passthrough ω) :
    (tryCatch a handle : Action ω α) s =
      match a s with
      | (.ok value, s') => (.ok value, s')
      | (.error e, s') => handle e s' := by
  rcases result : a s with ⟨answer, s'⟩
  simp only [tryCatch, tryCatchThe, MonadExceptOf.tryCatch, ExceptT.tryCatch, ExceptT.mk,
    Bind.bind, StateT.bind, result]
  cases answer <;> rfl

def Quiet (a : Action ω α) : Prop := ∀ s, (a s).2.table = s.table

theorem quiet_pure (value : α) : Quiet (pure value : Action ω α) := fun _ => rfl

theorem quiet_throw (e : Errc) : Quiet (throw e : Action ω α) := fun _ => rfl

theorem quiet_get : Quiet (get : Action ω (Passthrough ω)) := fun _ => rfl

theorem quiet_sys (f : ω → Except Errc α × ω) : Quiet (sys f) := fun _ => rfl

theorem quiet_bind {a : Action ω α} {f : α → Action ω β} (first : Quiet a)
    (later : ∀ value, Quiet (f value)) : Quiet (a >>= f) := by
  intro s
  have kept := first s
  rw [bind_apply]
  rcases result : a s with ⟨answer, s'⟩
  rw [result] at kept
  cases answer with
  | ok value => exact (later value s').trans kept
  | error e => exact kept

theorem quiet_map {a : Action ω α} (f : α → β) (quiet : Quiet a) : Quiet (f <$> a) := by
  rw [map_eq_pure_bind]
  exact quiet_bind quiet fun _ => quiet_pure _

theorem quiet_tryCatch {a : Action ω α} {handle : Errc → Action ω α} (quiet : Quiet a)
    (handled : ∀ e, Quiet (handle e)) : Quiet (tryCatch a handle) := by
  intro s
  have kept := quiet s
  rw [tryCatch_apply]
  rcases result : a s with ⟨answer, s'⟩
  rw [result] at kept
  cases answer with
  | ok value => exact kept
  | error e => exact (handled e s').trans kept

theorem quiet_ite {c : Prop} [Decidable c] {a b : Action ω α} (first : Quiet a)
    (second : Quiet b) : Quiet (if c then a else b) := by
  split
  · exact first
  · exact second

/-- A call that is made only in some cases. -/
theorem quiet_optional {c : Prop} [Decidable c] {f : ω → Except Errc Unit × ω}
    {rest : Unit → Action ω α} (later : ∀ u, Quiet (rest u)) :
    Quiet (if c then sys f >>= rest else rest ()) :=
  quiet_ite (quiet_bind (quiet_sys f) later) (later ())

theorem quiet_inode (n : NodeId) : Quiet (inode n : Action ω Inode) := by
  refine quiet_bind quiet_get ?_
  intro s
  split
  · exact quiet_throw _
  · exact quiet_pure _

section Callbacks

variable (os : System ω)

/-- The shape of most callbacks: find the inode, make a call. -/
theorem quiet_inode_sys (n : NodeId) (f : Inode → ω → Except Errc α × ω) :
    Quiet (inode n >>= fun i => sys (f i)) :=
  quiet_bind (quiet_inode n) fun _ => quiet_sys _

theorem quiet_ioFd (n : NodeId) (fh : FileHandle) (mode : UInt32) : Quiet (ioFd os n fh mode) := by
  refine quiet_bind quiet_get ?_
  intro s
  split
  · exact quiet_pure _
  · exact quiet_inode_sys n _

theorem quiet_create (dir : Int32) (obj : MkobjxIn) : Quiet (create os dir obj) := by
  unfold create
  dsimp only
  split
  all_goals first | exact quiet_sys _ | exact quiet_throw _

theorem quiet_setstatx (n : NodeId) (fh : FileHandle) (attrs : SetStatxIn) :
    Quiet (setstatx os n fh attrs) := by
  unfold setstatx
  refine quiet_bind quiet_get ?_
  intro s
  -- The file is found first; then come up to four calls, and `statx`.
  cases fileFd fh s
  case' some fd => refine quiet_bind (quiet_pure _) ?_
  case' none => refine quiet_bind (quiet_inode n) fun _ => quiet_bind (quiet_pure _) ?_
  all_goals
    intro file
    iterate 4
      apply quiet_optional
      intro _
    exact quiet_inode_sys n _

theorem quiet_openFile (n : NodeId) (flags : UInt32) : Quiet (openFile os n flags) :=
  quiet_bind (quiet_inode n) fun _ => quiet_bind (quiet_sys _) fun _ _ => rfl

theorem quiet_opendir (n : NodeId) : Quiet (opendir os n) :=
  quiet_bind (quiet_inode n) fun _ => quiet_bind (quiet_sys _) fun _ =>
    quiet_bind (quiet_sys _) fun _ _ => rfl

theorem quiet_rename (olddir : NodeId) (oldname : Bytes) (newdir : NodeId) (newname : Bytes)
    (flags : UInt32) : Quiet (rename os olddir oldname newdir newname flags) :=
  quiet_bind (quiet_inode olddir) fun _ => quiet_inode_sys newdir _

theorem quiet_link (oldnodeid newparent : NodeId) (newname : Bytes) :
    Quiet (link os oldnodeid newparent newname) :=
  quiet_bind (quiet_inode oldnodeid) fun _ => quiet_inode_sys newparent _

theorem table_fill {span : Bytes} {prepare : Action ω α} (quiet : Quiet prepare)
    (read : α → ω → Filled span × ω) (s : Passthrough ω) :
    (fill span prepare read s).2.table = s.table := by
  have kept := quiet s
  unfold fill
  rcases result : prepare s with ⟨answer, s'⟩
  rw [result] at kept
  cases answer with
  | ok value => exact kept
  | error e => exact kept

theorem table_readdir (fh : FileHandle) (offset : UInt64) (s : Passthrough ω) (w : DirentWriter) :
    ((readdir fh offset s).fill w).1.2.table = s.table := by
  unfold readdir
  split
  · rfl
  · simp [DirentScript.fill]

/-! ### Steps that enter a node -/

/-- What becomes of the table when an entry is returned: an insert, unless it is negative. -/
def Entered (t t' : InodeTable) : Except Errc EntryOut → Prop
  | .ok entry => if entry.negative then t' = t else ∃ fd, t' = (t.insert fd entry.nodeid).2
  | .error _ => t' = t

def Enters (a : Action ω EntryOut) : Prop := ∀ s, Entered s.table (a s).2.table (a s).1

theorem enters_bind {a : Action ω α} {f : α → Action ω EntryOut} (first : Quiet a)
    (later : ∀ value, Enters (f value)) : Enters (a >>= f) := by
  intro s
  have kept := first s
  rw [bind_apply]
  rcases result : a s with ⟨answer, s'⟩
  rw [result] at kept
  cases answer with
  | ok value =>
    have entered := later value s'
    rwa [kept] at entered
  | error e => exact kept

/-- `fstatat` of a new descriptor, and its entry. -/
theorem enters_insert (fd : Int32) (stIno : UInt64) :
    Enters (do
      let n ← insert fd stIno
      return { nodeid := n, entryValid := entryTimeout } : Action ω EntryOut) :=
  fun _ => ⟨fd, rfl⟩

theorem enters_lookupx (parent : NodeId) (name : Bytes) : Enters (lookupx os parent name) := by
  refine enters_bind (quiet_inode parent) fun p => enters_bind ?_ ?_
  · refine quiet_tryCatch (quiet_map _ (quiet_sys _)) ?_
    intro e
    exact quiet_ite (quiet_pure _) (quiet_throw _)
  · intro opened
    cases opened with
    -- A negative entry names no node.
    | none => exact fun _ => rfl
    | some cfd => exact enters_bind (quiet_sys _) fun st => enters_insert cfd st.ino

theorem enters_mkobjx (parent : NodeId) (obj : MkobjxIn) : Enters (mkobjx os parent obj) := by
  refine enters_bind (quiet_inode parent) ?_
  intro p
  -- The object is there; what is left is to open it and enter it.
  have last : Enters (do
      let cfd ← sys (os.openat p.pathFd (cStr obj.name))
      let st ← sys (os.fstatat cfd)
      let n ← insert cfd st.ino
      return { nodeid := n, entryValid := entryTimeout }) :=
    enters_bind (quiet_sys _) fun cfd => enters_bind (quiet_sys _) fun st =>
      enters_insert cfd st.ino
  dsimp only
  split
  · exact enters_bind (quiet_sys _) fun _ => enters_bind (quiet_sys _) fun st =>
      enters_bind (quiet_sys _) fun pfd => enters_insert pfd st.ino
  · refine enters_bind (quiet_create os _ _) ?_
    intro _
    split
    · exact last
    · refine enters_bind (quiet_tryCatch (quiet_sys _) ?_) fun _ => last
      intro e
      exact quiet_ite (quiet_pure _) (quiet_throw _)

end Callbacks

end Passthrough

/-! ### Callbacks as operations on the table -/

/-- The node of an entry that the kernel may use from now on. -/
def entryNode : Except Errc EntryOut → Option NodeId
  | .ok entry => if entry.negative then none else some entry.nodeid
  | .error _ => none

/-- The node of which the kernel has one more lookup after an answer. -/
def Callback.entered : (cb : Callback) → cb.Answer → Option NodeId
  | .lookupx .., answer => entryNode answer
  | .mkobjx .., answer => entryNode answer
  | _, _ => none

/-- The lookups the kernel takes back. -/
def Callback.forgotten : Callback → List (NodeId × UInt64)
  | .forget nodeid nlookup => [(nodeid, nlookup)]
  | .forgetMulti items => items
  | _ => []

/-- What is done to the table when the kernel gets a lookup or takes some back. -/
inductive Performs : Option NodeId → List (NodeId × UInt64) → List TableOp → Prop where
  | insert (fd : Int32) (n : NodeId) : Performs (some n) [] [.insert fd n]
  | forget (n : NodeId) (c : UInt64) : Performs none [(n, c)] [.forget n c]
  | forgetMany (items : List (NodeId × UInt64)) : Performs none items [.forgetMany items]
  | quiet : Performs none [] []

section Daemon

variable {ω : Type} (os : System ω)

theorem Passthrough.Entered.performs {t t' : InodeTable} {answer : Except Errc EntryOut}
    (entered : Passthrough.Entered t t' answer) :
    ∃ ops, t' = t.run ops ∧ Performs (entryNode answer) [] ops := by
  cases answer with
  | error e => exact ⟨[], entered, .quiet⟩
  | ok entry =>
    simp only [Passthrough.Entered] at entered
    simp only [entryNode]
    split at entered
    next negative =>
      rw [if_pos negative]
      exact ⟨[], entered, .quiet⟩
    next positive =>
      obtain ⟨fd, inserted⟩ := entered
      rw [if_neg positive]
      exact ⟨[.insert fd entry.nodeid], inserted, .insert fd entry.nodeid⟩

/-- A callback is at most one operation on the table. -/
theorem perform_performs (cb : Callback) (s : Passthrough ω) :
    ∃ ops, ((Passthrough.filesystem os).perform cb s).2.table = s.table.run ops ∧
      Performs (cb.entered ((Passthrough.filesystem os).perform cb s).1) cb.forgotten ops := by
  have none : ∀ {t : InodeTable}, t = s.table →
      ∃ ops, t = s.table.run ops ∧ Performs none [] ops := fun same => ⟨[], same, .quiet⟩
  cases cb with
  | lookupx ctx parent name => exact (Passthrough.enters_lookupx os parent name s).performs
  | mkobjx ctx parent obj => exact (Passthrough.enters_mkobjx os parent obj s).performs
  | forget nodeid nlookup => exact ⟨[.forget nodeid nlookup], rfl, .forget nodeid nlookup⟩
  | forgetMulti items => exact ⟨[.forgetMany items], rfl, .forgetMany items⟩
  | init | lookupRoot | release | releasedir => exact none rfl
  | statx ctx nodeid | readlink ctx nodeid | statfs ctx nodeid =>
    exact none (Passthrough.quiet_inode_sys nodeid _ s)
  | unlink ctx parent name | rmdir ctx parent name =>
    exact none (Passthrough.quiet_inode_sys parent _ s)
  | setxattr ctx nodeid name value flags | removexattr ctx nodeid name =>
    exact none (Passthrough.quiet_inode_sys nodeid _ s)
  | setstatx ctx nodeid fh attrs => exact none (Passthrough.quiet_setstatx os nodeid fh attrs s)
  | rename ctx olddir oldname newdir newname flags =>
    exact none (Passthrough.quiet_rename os olddir oldname newdir newname flags s)
  | link ctx oldnodeid newparent newname =>
    exact none (Passthrough.quiet_link os oldnodeid newparent newname s)
  | openFile ctx nodeid flags => exact none (Passthrough.quiet_openFile os nodeid flags s)
  | opendir ctx nodeid => exact none (Passthrough.quiet_opendir os nodeid s)
  | write ctx nodeid fh offset data =>
    exact none (Passthrough.quiet_bind (Passthrough.quiet_ioFd os nodeid fh 1)
      (fun _ => Passthrough.quiet_sys _) s)
  | fallocate ctx nodeid fh mode offset length =>
    exact none (Passthrough.quiet_bind (Passthrough.quiet_ioFd os nodeid fh 1)
      (fun _ => Passthrough.quiet_sys _) s)
  | read ctx nodeid fh offset span =>
    exact none (Passthrough.table_fill (Passthrough.quiet_ioFd os nodeid fh 0) _ s)
  | getxattr ctx nodeid name span | listxattr ctx nodeid span =>
    exact none (Passthrough.table_fill (Passthrough.quiet_inode nodeid) _ s)
  | readdir ctx nodeid fh offset writer => exact none (Passthrough.table_readdir fh offset s writer)

/-! ### Handlers -/

def Event.entered : Event → Option NodeId
  | ⟨.call cb, answer⟩ => cb.entered answer
  | _ => none

def Event.forgotten : Event → List (NodeId × UInt64)
  | ⟨.call cb, _⟩ => cb.forgotten
  | _ => []

/-- The operations on the table that a log of events comes with. -/
inductive Follows : List Event → List TableOp → Prop where
  | nil : Follows [] []
  | cons {e : Event} {ops : List TableOp} {log : List Event} {later : List TableOp} :
      Performs e.entered e.forgotten ops → Follows log later → Follows (e :: log) (ops ++ later)

theorem Follows.append {log log' : List Event} {ops ops' : List TableOp} (first : Follows log ops)
    (second : Follows log' ops') : Follows (log ++ log') (ops ++ ops') := by
  induction first with
  | nil => exact second
  | cons performs _ ih =>
    rw [List.cons_append, List.append_assoc]
    exact .cons performs ih

theorem Follows.silent {e : Event} {log : List Event} {ops : List TableOp}
    (enters : e.entered = none) (forgets : e.forgotten = []) (follows : Follows log ops) :
    Follows (e :: log) ops := by
  have performs : Performs e.entered e.forgotten [] := by
    rw [enters, forgets]
    exact .quiet
  exact .cons performs follows

/-- A handler changes the table by the callbacks it makes. -/
theorem run_follows {α : Type} (p : Handler α) (w : World (Passthrough ω)) :
    ∃ ops, (run (World.step (Passthrough.filesystem os)) p w).2.fs.table = w.fs.table.run ops ∧
      Follows (trace (World.step (Passthrough.filesystem os)) p w) ops := by
  induction p generalizing w with
  | done value => exact ⟨[], rfl, .nil⟩
  | request op next ih =>
    obtain ⟨later, table, follows⟩ := ih (World.step (Passthrough.filesystem os) op w).1
      (World.step (Passthrough.filesystem os) op w).2
    cases op with
    -- Only a callback reaches the daemon.
    | call cb =>
      obtain ⟨ops, here, performs⟩ := perform_performs os cb w.fs
      refine ⟨ops ++ later, ?_, .cons performs follows⟩
      rw [InodeTable.run_append, ← here]
      exact table
    | load blk span off len => exact ⟨later, table, follows.silent rfl rfl⟩
    | store blk span off bytes => exact ⟨later, table, follows.silent rfl rfl⟩
    | setInitDone => exact ⟨later, table, follows.silent rfl rfl⟩

/-! ### What the kernel has -/

/-- The entries of `n` the daemon has replied with. -/
def lookedUp (n : NodeId) (log : List Event) : Nat := (log.filterMap Event.entered).count n

/-- The lookups of `n` the kernel has taken back, as one batch. -/
def takenBack (n : NodeId) (log : List Event) : Nat :=
  forgets n [.forgetMany (log.flatMap Event.forgotten)]

theorem takenBack_cons (n : NodeId) (e : Event) (log : List Event) :
    takenBack n (e :: log) = forgets n [.forgetMany e.forgotten] + takenBack n log := by
  simp [takenBack, forgets, TableOp.changes, TableOp.taken]

namespace Performs

variable {entered : Option NodeId} {forgotten : List (NodeId × UInt64)} {ops : List TableOp}
  (performs : Performs entered forgotten ops)
include performs

theorem inserts_eq (n : NodeId) : inserts n ops = entered.toList.count n := by
  cases performs with
  | insert fd m =>
    simp only [inserts, history_singleton, TableOp.changes, Option.toList_some,
      List.count_singleton, beq_iff_eq]
    split <;> rfl
  | forget m c => simp [inserts, TableOp.changes]
  | forgetMany => simp [inserts, TableOp.changes]
  | quiet => rfl

theorem forgets_eq (n : NodeId) : forgets n ops = forgets n [.forgetMany forgotten] := by
  cases performs with
  | insert fd m =>
    simp only [forgets, history_singleton, TableOp.changes]
    split <;> rfl
  | forget m c => rfl
  | forgetMany => rfl
  | quiet => rfl

theorem lookups_eq : lookups ops = entered.toList.length := by
  cases performs with
  | insert fd m => rfl
  | forget m c => rfl
  | forgetMany => rfl
  | quiet => rfl

theorem length_le_one : ops.length ≤ 1 := by
  cases performs with
  | insert fd m => exact Nat.le_refl 1
  | forget m c => exact Nat.le_refl 1
  | forgetMany => exact Nat.le_refl 1
  | quiet => exact Nat.zero_le 1

end Performs

namespace Follows

variable {log : List Event} {ops : List TableOp} (follows : Follows log ops)
include follows

theorem inserts_eq (n : NodeId) : inserts n ops = lookedUp n log := by
  induction follows with
  | nil => rfl
  | @cons e ops log later performs _ ih =>
    rw [inserts_append, performs.inserts_eq, ih, lookedUp, lookedUp, List.filterMap_cons]
    cases e.entered with
    | none => simp
    | some m => simp [List.count_cons, Nat.add_comm]

theorem forgets_eq (n : NodeId) : forgets n ops = takenBack n log := by
  induction follows with
  | nil => rfl
  | cons performs _ ih => rw [forgets_append, performs.forgets_eq, ih, takenBack_cons]

theorem lookups_eq : lookups ops = (log.filterMap Event.entered).length := by
  induction follows with
  | nil => rfl
  | @cons e ops log later performs _ ih =>
    rw [lookups_append, performs.lookups_eq, ih, List.filterMap_cons]
    cases e.entered with
    | none => simp
    | some m => simp [Nat.add_comm]

/-- The first operations come with the first events. -/
theorem of_prefix {sofar : List TableOp} (part : sofar <+: ops) :
    ∃ first, first <+: log ∧ Follows first sofar := by
  induction follows generalizing sofar with
  | nil => exact ⟨[], List.nil_prefix, by rw [List.prefix_nil.mp part]; exact .nil⟩
  | @cons e ops log later performs _ ih =>
    by_cases none : sofar = []
    · subst none
      exact ⟨[], List.nil_prefix, .nil⟩
    · -- An event is at most one operation, so all of it is there.
      have whole : ops <+: sofar := by
        refine List.prefix_of_prefix_length_le (List.prefix_append ops later) part ?_
        exact Nat.le_trans performs.length_le_one (List.length_pos_iff.mpr none)
      obtain ⟨rest, rfl⟩ := whole
      obtain ⟨first, begins, follows⟩ := ih ((List.prefix_append_right_inj ops).mp part)
      exact ⟨e :: first, List.cons_prefix_cons.mpr ⟨rfl, begins⟩, .cons performs follows⟩

end Follows

/-! ### The daemon's lifetime -/

/-- The daemon was in state `s₀`, has made the events of `log`, and is now in another state. Between
two handlers the rest of the world is arbitrary. -/
inductive Lifetime (s₀ : Passthrough ω) : List Event → Passthrough ω → Prop where
  | start : Lifetime s₀ [] s₀
  | handle {log : List Event} {α : Type} (p : Handler α) (w : World (Passthrough ω)) :
      Lifetime s₀ log w.fs →
      Lifetime s₀ (log ++ trace (World.step (Passthrough.filesystem os)) p w)
        (run (World.step (Passthrough.filesystem os)) p w).2.fs

variable {os}

theorem Lifetime.follows {s₀ s : Passthrough ω} {log : List Event}
    (lifetime : Lifetime os s₀ log s) :
    ∃ ops, s.table = s₀.table.run ops ∧ Follows log ops := by
  induction lifetime with
  | start => exact ⟨[], rfl, .nil⟩
  | handle p w _ ih =>
    obtain ⟨ops, table, follows⟩ := ih
    obtain ⟨later, table', follows'⟩ := run_follows os p w
    refine ⟨ops ++ later, ?_, follows.append follows'⟩
    rw [InodeTable.run_append, ← table, table']

/-- The daemon holds just the nodes the kernel has, with as many lookups. -/
theorem daemon_counts_lookups {backing : Int32} {system : ω} {log : List Event} {s : Passthrough ω}
    (lifetime : Lifetime os (Passthrough.start backing system) log s)
    (few : (log.filterMap Event.entered).length < 2 ^ 64)
    (balanced : ∀ sofar, sofar <+: log → ∀ n, n ≠ NodeId.root →
      takenBack n sofar ≤ lookedUp n sofar) :
    (s.table.get NodeId.root).map Inode.pathFd = some backing ∧
      ∀ n, n ≠ NodeId.root →
        ((s.table.get n).isSome ↔ takenBack n log < lookedUp n log) ∧
        ∀ inode, s.table.get n = some inode →
          inode.nlookup.toNat = lookedUp n log - takenBack n log := by
  obtain ⟨ops, table, follows⟩ := lifetime.follows
  have exact := entriesExact backing ops (by rw [follows.lookups_eq]; exact few)
  have kept : Balanced ops := by
    -- Where the operations stop, so do the events they come from.
    intro sofar part n other
    obtain ⟨first, begins, follows'⟩ := follows.of_prefix part
    rw [follows'.forgets_eq, follows'.inserts_eq]
    exact balanced first begins n other
  rw [table]
  refine ⟨exact.root, ?_⟩
  intro n other
  rw [← follows.inserts_eq, ← follows.forgets_eq]
  exact ⟨exact.present kept n other, exact.nlookup kept n other⟩

end Daemon

end Fex
