import Fex.Foundation.Counter
import Fex.Passthrough.InodeTable

/-!
# Lookup counts of the inode table

## Main results

- `counts_exact`: after any sequence of `insert`, `forget` and `forget_many` with fewer than
  2^64 inserts, the root is there with the descriptor the table was made with; the entries of
  the other nodes count their lookups without wrapping and go when nothing is left; and if the
  forgets never get ahead of the inserts, an entry counts exactly the difference.
- `root_count_wraps`: the count of the root starts at one, so that 2^64 - 1 inserts of its inode
  number, one less than the bound allows, make it zero.

## Proof strategy

Each node has a history: the operations as they change its count. `Counts` relates an entry of
the table to the counter after that history, and every operation keeps it (`Counts.apply`), as
long as 64 bits are enough. Exactness is then a matter of the counter alone.
-/
namespace Fex

open Foundation Change

/-! ### Sequences of operations -/

inductive TableOp where
  | insert (fd : Int32) (stIno : UInt64)
  | forget (nid : NodeId) (n : UInt64)
  | forgetMany (items : List (NodeId × UInt64))
  deriving DecidableEq

namespace TableOp

def apply (t : InodeTable) : TableOp → InodeTable
  | insert fd stIno => (t.insert fd stIno).2
  | forget nid n => t.forget nid n
  | forgetMany items => t.forgetMany items

def isInsert : TableOp → Bool
  | insert .. => true
  | _ => false

/-- The lookups of `n` that a batch takes back. -/
def taken (n : NodeId) (items : List (NodeId × UInt64)) : List Nat :=
  (items.filter fun item => item.1 = n).map fun item => item.2.toNat

/-- What an operation does to the number of lookups of `n`. -/
def changes (n : NodeId) : TableOp → List Change
  | insert _ stIno => if stIno = n then [up] else []
  | forget nid c => (taken n [(nid, c)]).map down
  | forgetMany items => (taken n items).map down

end TableOp

def InodeTable.run (t : InodeTable) (ops : List TableOp) : InodeTable := ops.foldl TableOp.apply t

def history (n : NodeId) (ops : List TableOp) : List Change := ops.flatMap (TableOp.changes n)

def inserts (n : NodeId) (ops : List TableOp) : Nat := ups (history n ops)

def forgets (n : NodeId) (ops : List TableOp) : Nat := downs (history n ops)

/-- The inserts of any node. -/
def lookups (ops : List TableOp) : Nat := ops.countP TableOp.isInsert

/-- The kernel takes back no more than it was given. -/
def Balanced (ops : List TableOp) : Prop :=
  ∀ sofar, sofar <+: ops → ∀ n, n ≠ NodeId.root → forgets n sofar ≤ inserts n sofar

@[simp] theorem InodeTable.run_append (t : InodeTable) (ops later : List TableOp) :
    t.run (ops ++ later) = (t.run ops).run later := by
  simp [InodeTable.run]

@[simp] theorem InodeTable.run_singleton (t : InodeTable) (op : TableOp) :
    t.run [op] = op.apply t := rfl

@[simp] theorem history_append (n : NodeId) (ops later : List TableOp) :
    history n (ops ++ later) = history n ops ++ history n later := by
  simp [history]

@[simp] theorem history_singleton (n : NodeId) (op : TableOp) : history n [op] = op.changes n := by
  simp [history]

theorem inserts_append (n : NodeId) (ops later : List TableOp) :
    inserts n (ops ++ later) = inserts n ops + inserts n later := by
  simp [inserts]

theorem forgets_append (n : NodeId) (ops later : List TableOp) :
    forgets n (ops ++ later) = forgets n ops + forgets n later := by
  simp [forgets]

theorem lookups_append (ops later : List TableOp) :
    lookups (ops ++ later) = lookups ops + lookups later := by
  simp [lookups]

theorem inserts_le_lookups (n : NodeId) (ops : List TableOp) : inserts n ops ≤ lookups ops := by
  induction ops with
  | nil => simp [inserts, history, lookups]
  | cons op ops ih =>
    have one : ups (op.changes n) ≤ if op.isInsert then 1 else 0 := by
      cases op with
      | insert fd stIno =>
        simp only [TableOp.changes, TableOp.isInsert, if_true]
        split <;> simp
      | forget nid c => simp [TableOp.changes]
      | forgetMany items => simp [TableOp.changes]
    simp only [inserts, history, lookups, List.flatMap_cons, ups_append, List.countP_cons] at ih ⊢
    omega

/-! ### An entry and its counter -/

/-- The entry of a node counts `c` lookups; without lookups there is no entry. -/
def Counts : Option Inode → Nat → Prop
  | none, c => c = 0
  | some inode, c => inode.nlookup.toNat = c ∧ c ≠ 0

theorem Counts.isSome_iff {entry : Option Inode} {c : Nat} (counts : Counts entry c) :
    entry.isSome ↔ 0 < c := by
  cases entry with
  | none => simp_all [Counts]
  | some inode =>
    simp only [Option.isSome_some, true_iff]
    exact Nat.pos_of_ne_zero counts.2

theorem Counts.unwrapped {inode : Inode} {c : Nat} (counts : Counts (some inode) c) :
    inode.nlookup.toNat = c ∧ inode.nlookup ≠ 0 := by
  obtain ⟨rfl, nonzero⟩ := counts
  refine ⟨rfl, ?_⟩
  intro zero
  rw [zero] at nonzero
  exact nonzero UInt64.toNat_zero

theorem Counts.insert {t : InodeTable} {n : NodeId} {c : Nat} (counts : Counts (t.get n) c)
    (fd : Int32) (few : c + 1 < 2 ^ 64) : Counts ((t.insert fd n).2.get n) (c + 1) := by
  -- A node without an entry has a count of zero, and a new entry starts with zero.
  have stored : ((t.get n).getD { pathFd := fd, nlookup := 0 }).nlookup.toNat = c := by
    cases present : t.get n with
    | none =>
      rw [present] at counts
      exact counts.symm
    | some inode =>
      rw [present] at counts
      exact counts.1
  rw [InodeTable.get_insert]
  refine ⟨?_, Nat.succ_ne_zero c⟩
  simp only [UInt64.toNat_add, stored, UInt64.toNat_one]
  exact Nat.mod_eq_of_lt few

theorem Counts.less {entry : Option Inode} {c : Nat} (counts : Counts entry c) (n : UInt64) :
    Counts (entry.bind fun inode => inode.less n) (c - n.toNat) := by
  cases entry with
  | none =>
    rw [show c = 0 from counts]
    simp [Counts]
  | some inode =>
    obtain ⟨rfl, _⟩ := counts
    simp only [Option.bind_some, Inode.less]
    by_cases all : n ≥ inode.nlookup
    · have more := UInt64.le_iff_toNat_le.mp all
      simp only [if_pos all, Counts]
      omega
    · have fewer := UInt64.lt_iff_toNat_lt.mp (UInt64.not_le.mp all)
      have difference := UInt64.toNat_sub_of_le inode.nlookup n
        (UInt64.le_iff_toNat_le.mpr (Nat.le_of_lt fewer))
      simp only [if_neg all, Counts]
      omega

section OtherNodes

variable {n : NodeId} (other : n ≠ NodeId.root)
include other

theorem Counts.forget {t : InodeTable} {past : List Change} (counts : Counts (t.get n) (tally past))
    (nid : NodeId) (c : UInt64) :
    Counts ((t.forget nid c).get n) (tally (past ++ (TableOp.taken n [(nid, c)]).map down)) := by
  by_cases same : nid = n
  · subst same
    simp only [TableOp.taken, List.filter_cons, decide_true, if_true, List.filter_nil,
      List.map_cons, List.map_nil, tally_append_down, InodeTable.get_forget _ _ other]
    exact counts.less c
  · simp only [TableOp.taken, List.filter_cons, same, decide_false, Bool.false_eq_true, if_false,
      List.filter_nil, List.map_nil, List.append_nil,
      InodeTable.get_forget_of_ne _ _ (Ne.symm same)]
    exact counts

theorem Counts.forgetMany {t : InodeTable} {past : List Change}
    (counts : Counts (t.get n) (tally past)) (items : List (NodeId × UInt64)) :
    Counts ((t.forgetMany items).get n) (tally (past ++ (TableOp.taken n items).map down)) := by
  rw [InodeTable.forgetMany_eq_foldl]
  induction items generalizing t past with
  | nil => simpa [TableOp.taken] using counts
  | cons item items ih =>
    -- The first item goes to the past of the others.
    have first := counts.forget other item.1 item.2
    have rest := ih first
    rw [List.append_assoc, ← List.map_append, TableOp.taken, TableOp.taken, ← List.map_append,
      ← List.filter_append] at rest
    exact rest

/-- Every operation does to the entry what it does to the counter. -/
theorem Counts.apply {t : InodeTable} {past : List Change} (counts : Counts (t.get n) (tally past))
    (op : TableOp) (few : ups (past ++ op.changes n) < 2 ^ 64) :
    Counts ((op.apply t).get n) (tally (past ++ op.changes n)) := by
  cases op with
  | insert fd stIno =>
    simp only [TableOp.apply, TableOp.changes] at few ⊢
    by_cases same : stIno = n
    · subst same
      rw [if_pos rfl] at few ⊢
      rw [tally_append_up]
      refine counts.insert fd ?_
      -- The counter is never ahead of the inserts, so that it has room for one more.
      have bound := tally_le_ups past
      rw [ups_append, ups_cons_up, ups_nil] at few
      omega
    · rw [if_neg same, List.append_nil, InodeTable.get_insert_of_ne _ _ (Ne.symm same)]
      exact counts
  | forget nid c => exact counts.forget other nid c
  | forgetMany items => exact counts.forgetMany other items

theorem counts_run (rootFd : Int32) (ops : List TableOp) (few : inserts n ops < 2 ^ 64) :
    Counts (((InodeTable.start rootFd).run ops).get n) (tally (history n ops)) := by
  induction ops using List.reverseRecOn with
  | nil =>
    rw [InodeTable.run, List.foldl_nil, InodeTable.get_start_of_ne _ other]
    rfl
  | append_singleton ops op ih =>
    rw [inserts, history_append, history_singleton] at few
    have before : inserts n ops < 2 ^ 64 := by
      rw [ups_append] at few
      unfold inserts
      omega
    simp only [InodeTable.run_append, InodeTable.run_singleton, history_append, history_singleton]
    exact (ih before).apply other op few

/-- In balance, nothing is lost at zero. -/
theorem Balanced.exact {ops : List TableOp} (balanced : Balanced ops) : Exact (history n ops) := by
  induction ops using List.reverseRecOn with
  | nil => exact Exact.nil
  | append_singleton ops op ih =>
    have before := ih fun sofar part => balanced sofar (part.trans (List.prefix_append ops [op]))
    have now := balanced _ List.prefix_rfl n other
    rw [forgets, inserts] at now
    rw [history_append, history_singleton] at now ⊢
    cases op with
    | insert fd stIno =>
      simp only [TableOp.changes]
      split
      · exact before.append_up
      · simpa using before
    -- A batch is in balance once all of it is done.
    | forget nid c => exact before.append_downs _ now
    | forgetMany items => exact before.append_downs _ now

end OtherNodes

/-! ### The root -/

theorem get_root_forget (t : InodeTable) (nid : NodeId) (c : UInt64) :
    (t.forget nid c).get NodeId.root = t.get NodeId.root := by
  by_cases root : nid = NodeId.root
  · subst root
    exact t.get_forget_root c NodeId.root
  · exact t.get_forget_of_ne c (Ne.symm root)

theorem get_root_forgetMany (t : InodeTable) (items : List (NodeId × UInt64)) :
    (t.forgetMany items).get NodeId.root = t.get NodeId.root := by
  rw [InodeTable.forgetMany_eq_foldl]
  induction items generalizing t with
  | nil => rfl
  | cons item items ih => rw [List.foldl_cons, ih, get_root_forget]

theorem get_root_apply {t : InodeTable} {root : Inode} (present : t.get NodeId.root = some root)
    (op : TableOp) :
    (op.apply t).get NodeId.root =
      some { root with nlookup := root.nlookup + UInt64.ofNat (ups (op.changes NodeId.root)) } := by
  cases op with
  | insert fd stIno =>
    simp only [TableOp.apply, TableOp.changes]
    by_cases same : stIno = NodeId.root
    · subst same
      simp [InodeTable.get_insert, present]
    · simp [InodeTable.get_insert_of_ne _ _ (Ne.symm same), present, same]
  | forget nid c => simp [TableOp.apply, TableOp.changes, get_root_forget, present]
  | forgetMany items => simp [TableOp.apply, TableOp.changes, get_root_forgetMany, present]

/-- The root stays, and only inserts change its count. -/
theorem get_root_run (rootFd : Int32) (ops : List TableOp) :
    ((InodeTable.start rootFd).run ops).get NodeId.root =
      some { pathFd := rootFd, nlookup := UInt64.ofNat (1 + inserts NodeId.root ops) } := by
  induction ops using List.reverseRecOn with
  | nil => exact InodeTable.get_start_root rootFd
  | append_singleton ops op ih =>
    rw [InodeTable.run_append, InodeTable.run_singleton, get_root_apply ih, inserts, inserts,
      history_append, history_singleton, ups_append, ← Nat.add_assoc,
      UInt64.ofNat_add _ (ups (op.changes _))]

/-! ### Descriptors -/

/-- Taking lookups back never changes a descriptor. -/
theorem pathFd_forget {t : InodeTable} {n : NodeId} {fd : Int32} (nid : NodeId) (c : UInt64)
    (holds : ((t.forget nid c).get n).map Inode.pathFd = some fd) :
    (t.get n).map Inode.pathFd = some fd := by
  by_cases same : n = nid
  · subst same
    by_cases root : n = NodeId.root
    · subst root
      rwa [InodeTable.get_forget_root] at holds
    · -- The entry is dropped or keeps its descriptor.
      rw [InodeTable.get_forget _ _ root] at holds
      cases present : t.get n with
      | none => simp [present] at holds
      | some inode =>
        simp only [present, Option.bind_some, Inode.less] at holds
        split at holds
        · cases holds
        · exact holds
  · rwa [InodeTable.get_forget_of_ne _ _ same] at holds

theorem pathFd_forgetMany {t : InodeTable} {n : NodeId} {fd : Int32}
    (items : List (NodeId × UInt64))
    (holds : ((t.forgetMany items).get n).map Inode.pathFd = some fd) :
    (t.get n).map Inode.pathFd = some fd := by
  rw [InodeTable.forgetMany_eq_foldl] at holds
  induction items generalizing t with
  | nil => exact holds
  | cons item items ih => exact pathFd_forget item.1 item.2 (ih holds)

/-- A descriptor comes in with the insert that makes the entry. -/
theorem pathFd_apply (n : NodeId) (t : InodeTable) (op : TableOp) (fd : Int32)
    (holds : ((op.apply t).get n).map Inode.pathFd = some fd) :
    (t.get n).map Inode.pathFd = some fd ∨
      ((t.get n).map Inode.pathFd = none ∧ op = .insert fd n) := by
  cases op with
  | insert fd' stIno =>
    by_cases same : n = stIno
    · subst same
      rw [TableOp.apply, InodeTable.get_insert] at holds
      cases present : t.get n with
      | none =>
        right
        simp only [present, Option.getD_none, Option.map_some, Option.some.injEq] at holds
        subst holds
        exact ⟨rfl, rfl⟩
      | some inode =>
        left
        simpa [present] using holds
    · left
      rwa [TableOp.apply, InodeTable.get_insert_of_ne _ _ same] at holds
  | forget nid c => exact .inl (pathFd_forget nid c holds)
  | forgetMany items => exact .inl (pathFd_forgetMany items holds)

/-- `fd` came with an insert of `n` before which there was no entry, and there is one since. -/
def FirstInsert (rootFd : Int32) (ops : List TableOp) (n : NodeId) (fd : Int32) : Prop :=
  ∃ before after, ops = before ++ .insert fd n :: after ∧
    ((InodeTable.start rootFd).run before).get n = none ∧
    ∀ sofar, sofar <+: after →
      (((InodeTable.start rootFd).run (before ++ .insert fd n :: sofar)).get n).isSome

theorem firstInsert_of_get {rootFd : Int32} {ops : List TableOp} {n : NodeId} {inode : Inode}
    (other : n ≠ NodeId.root)
    (present : ((InodeTable.start rootFd).run ops).get n = some inode) :
    FirstInsert rootFd ops n inode.pathFd := by
  have absent : ((InodeTable.start rootFd).get n).map Inode.pathFd = none := by
    rw [InodeTable.get_start_of_ne _ other]
    rfl
  have holds : (((InodeTable.start rootFd).run ops).get n).map Inode.pathFd =
      some inode.pathFd := by
    rw [present]
    rfl
  -- The descriptor is what is held, and an insert into an empty place is what brings it.
  obtain ⟨before, op, after, rfl, rfl, none, since⟩ :=
    exists_origin TableOp.apply (fun t => (t.get n).map Inode.pathFd)
      (fun op fd => op = .insert fd n) (pathFd_apply n) absent ops holds
  refine ⟨before, after, rfl, Option.map_eq_none_iff.mp none, ?_⟩
  intro sofar part
  obtain ⟨held, there, _⟩ := Option.map_eq_some_iff.mp (since sofar part)
  exact Option.isSome_iff_exists.mpr ⟨held, there⟩

/-! ### Whole runs -/

/-- What holds of the entries after a run, the count of the root apart. -/
structure EntriesExact (rootFd : Int32) (ops : List TableOp) : Prop where
  root : (((InodeTable.start rootFd).run ops).get NodeId.root).map Inode.pathFd = some rootFd
  present : Balanced ops → ∀ n, n ≠ NodeId.root →
    ((((InodeTable.start rootFd).run ops).get n).isSome ↔ forgets n ops < inserts n ops)
  nlookup : Balanced ops → ∀ n, n ≠ NodeId.root → ∀ inode,
    ((InodeTable.start rootFd).run ops).get n = some inode →
      inode.nlookup.toNat = inserts n ops - forgets n ops
  pathFd : ∀ n, n ≠ NodeId.root → ∀ inode,
    ((InodeTable.start rootFd).run ops).get n = some inode →
      FirstInsert rootFd ops n inode.pathFd
  unwrapped : ∀ n, n ≠ NodeId.root → ∀ inode,
    ((InodeTable.start rootFd).run ops).get n = some inode →
      inode.nlookup.toNat = tally (history n ops) ∧ inode.nlookup ≠ 0

/-- The same for the count of the root: it is one more than its inserts, and not zero. -/
def RootUnwrapped (rootFd : Int32) (ops : List TableOp) : Prop :=
  ∀ inode, ((InodeTable.start rootFd).run ops).get NodeId.root = some inode →
    inode.nlookup.toNat = 1 + inserts NodeId.root ops ∧ inode.nlookup ≠ 0

theorem entriesExact (rootFd : Int32) (ops : List TableOp) (few : lookups ops < 2 ^ 64) :
    EntriesExact rootFd ops := by
  have counts : ∀ {n : NodeId}, n ≠ NodeId.root →
      Counts (((InodeTable.start rootFd).run ops).get n) (tally (history n ops)) := by
    intro n other
    exact counts_run other rootFd ops (Nat.lt_of_le_of_lt (inserts_le_lookups n ops) few)
  have exact : Balanced ops → ∀ {n : NodeId}, n ≠ NodeId.root →
      tally (history n ops) + forgets n ops = inserts n ops := fun balanced _ other =>
    balanced.exact other
  constructor
  · rw [get_root_run]
    rfl
  · intro balanced n other
    rw [(counts other).isSome_iff]
    have difference := exact balanced other
    omega
  · intro balanced n other inode present
    have counted := counts other
    rw [present] at counted
    have difference := exact balanced other
    rw [counted.1]
    omega
  · intro n other inode present
    exact firstInsert_of_get other present
  · intro n other inode present
    have counted := counts other
    rw [present] at counted
    exact counted.unwrapped

theorem rootUnwrapped_iff (rootFd : Int32) (ops : List TableOp) (few : lookups ops < 2 ^ 64) :
    RootUnwrapped rootFd ops ↔ inserts NodeId.root ops ≠ 2 ^ 64 - 1 := by
  have bound := Nat.lt_of_le_of_lt (inserts_le_lookups NodeId.root ops) few
  constructor
  · intro unwrapped all
    have root := unwrapped _ (get_root_run rootFd ops)
    rw [all] at root
    exact root.2 rfl
  · intro fewer inode present
    rw [get_root_run, Option.some.injEq] at present
    subst present
    have fits : 1 + inserts NodeId.root ops < 2 ^ 64 := by omega
    exact Counts.unwrapped ⟨UInt64.toNat_ofNat_of_lt' fits, by omega⟩

/-- The table counts lookups exactly; the count of the root, which starts at one, does so until
2^64 - 1 inserts have hit it. -/
theorem counts_exact (rootFd : Int32) (ops : List TableOp) (few : lookups ops < 2 ^ 64) :
    EntriesExact rootFd ops ∧
      (RootUnwrapped rootFd ops ↔ inserts NodeId.root ops ≠ 2 ^ 64 - 1) :=
  ⟨entriesExact rootFd ops few, rootUnwrapped_iff rootFd ops few⟩

/-- Node 9 is looked up twice, dropped by one batch and looked up again. -/
theorem counts_exact_relookup :
    let ops := [.insert 4 9, .insert 5 9, .forgetMany [(9, 1), (NodeId.root, 3), (9, 1)],
      .insert 6 9]
    EntriesExact 3 ops ∧ (RootUnwrapped 3 ops ↔ inserts NodeId.root ops ≠ 2 ^ 64 - 1) :=
  counts_exact 3 _ (by decide)

theorem inserts_replicate (fd : Int32) (n : NodeId) (k : Nat) :
    inserts n (List.replicate k (.insert fd n)) = k := by
  induction k with
  | zero => rfl
  | succ k ih =>
    simp only [inserts, history, List.replicate_succ, List.flatMap_cons, ups_append] at ih ⊢
    simp [TableOp.changes, ih, Nat.add_comm]

/-- Fewer than 2^64 lookups, all of the root, and its entry counts none. -/
theorem root_count_wraps :
    let ops := List.replicate (2 ^ 64 - 1) (.insert 4 NodeId.root)
    lookups ops < 2 ^ 64 ∧
      ((InodeTable.start 3).run ops).get NodeId.root = some { pathFd := 3, nlookup := 0 } ∧
      ¬RootUnwrapped 3 ops := by
  have count : lookups (List.replicate (2 ^ 64 - 1) (.insert 4 NodeId.root)) = 2 ^ 64 - 1 := by
    rw [lookups, List.countP_replicate]
    rfl
  have root := get_root_run 3 (List.replicate (2 ^ 64 - 1) (.insert 4 NodeId.root))
  rw [inserts_replicate] at root
  refine ⟨by rw [count]; decide, root, ?_⟩
  intro unwrapped
  exact (unwrapped _ root).2 rfl

end Fex
