import Mathlib.Logic.Function.Basic
import Fex.Types

/-!
# The inode table of the passthrough daemon

`InodeTable` of `passthrough.cpp`: the inodes the kernel knows, each with the descriptor of
the backing object and the number of lookups the kernel has not taken back. `mu_` makes every
method one step, so a run of several threads is a sequence of methods. When the descriptor of
a dropped entry is closed depends on who else still holds the entry, and is not modelled.
-/
namespace Fex

structure Inode where
  pathFd : Int32
  nlookup : UInt64
  deriving DecidableEq

/-- What is left of an entry after `n` of its lookups were taken back. -/
def Inode.less (inode : Inode) (n : UInt64) : Option Inode :=
  if n ≥ inode.nlookup then none else some { inode with nlookup := inode.nlookup - n }

structure InodeTable where
  map : NodeId → Option Inode

namespace InodeTable

/-- The constructor: the root is there from the start. -/
def start (rootFd : Int32) : InodeTable :=
  ⟨Function.update (fun _ => none) NodeId.root (some { pathFd := rootFd, nlookup := 1 })⟩

def get (t : InodeTable) (n : NodeId) : Option Inode := t.map n

def insert (t : InodeTable) (fd : Int32) (stIno : UInt64) : NodeId × InodeTable :=
  -- An entry that exists keeps its `path_fd`; a new one starts without lookups.
  let inode := (t.map stIno).getD { pathFd := fd, nlookup := 0 }
  (stIno, ⟨Function.update t.map stIno (some { inode with nlookup := inode.nlookup + 1 })⟩)

def forgetLocked (t : InodeTable) (key : NodeId) (n : UInt64) : InodeTable :=
  match t.map key with
  | none => t
  | some inode =>
    -- Saturates, so that a misbehaving kernel cannot make it wrap.
    let nl := if n ≥ inode.nlookup then 0 else inode.nlookup - n
    if nl = 0 then ⟨Function.update t.map key none⟩
    else ⟨Function.update t.map key (some { inode with nlookup := nl })⟩

def forget (t : InodeTable) (nid : NodeId) (n : UInt64) : InodeTable :=
  if nid = NodeId.root then t else t.forgetLocked nid n

def forgetMany (t : InodeTable) : List (NodeId × UInt64) → InodeTable
  | [] => t
  | (nid, n) :: items =>
    if nid = NodeId.root then t.forgetMany items else (t.forgetLocked nid n).forgetMany items

/-! ### What a method does to one entry -/

@[simp] theorem get_start_root (rootFd : Int32) :
    (start rootFd).get NodeId.root = some { pathFd := rootFd, nlookup := 1 } := by
  simp [start, get]

theorem get_start_of_ne (rootFd : Int32) {n : NodeId} (other : n ≠ NodeId.root) :
    (start rootFd).get n = none := by
  simp [start, get, other]

theorem get_insert (t : InodeTable) (fd : Int32) (n : NodeId) :
    (t.insert fd n).2.get n =
      let inode := (t.get n).getD { pathFd := fd, nlookup := 0 }
      some { inode with nlookup := inode.nlookup + 1 } := by
  simp [insert, get]

theorem get_insert_of_ne (t : InodeTable) (fd : Int32) {stIno n : NodeId} (other : n ≠ stIno) :
    (t.insert fd stIno).2.get n = t.get n := by
  simp [insert, get, other]

theorem forgetLocked_get_of_ne (t : InodeTable) (c : UInt64) {key n : NodeId} (other : n ≠ key) :
    (t.forgetLocked key c).get n = t.get n := by
  unfold forgetLocked
  split
  · rfl
  next inode present =>
    dsimp only
    generalize (if c ≥ inode.nlookup then 0 else inode.nlookup - c) = nl
    split <;> simp [get, other]

theorem forgetLocked_get (t : InodeTable) (n : NodeId) (c : UInt64) :
    (t.forgetLocked n c).get n = (t.get n).bind fun inode => inode.less c := by
  unfold forgetLocked
  split
  next absent => simp [get, absent]
  next inode present =>
    simp only [get, present, Option.bind_some, Inode.less]
    by_cases all : c ≥ inode.nlookup
    · simp [all]
    · -- Something is left, so the entry stays.
      have left : inode.nlookup - c ≠ 0 := by
        have fewer := UInt64.lt_iff_toNat_lt.mp (UInt64.not_le.mp all)
        have difference := UInt64.toNat_sub_of_le inode.nlookup c
          (UInt64.le_iff_toNat_le.mpr (Nat.le_of_lt fewer))
        intro nothing
        rw [nothing, UInt64.toNat_zero] at difference
        omega
      simp [all, left]

theorem get_forget_root (t : InodeTable) (c : UInt64) (n : NodeId) :
    (t.forget NodeId.root c).get n = t.get n := by
  simp [forget]

theorem get_forget (t : InodeTable) (c : UInt64) {n : NodeId} (other : n ≠ NodeId.root) :
    (t.forget n c).get n = (t.get n).bind fun inode => inode.less c := by
  simp [forget, other, forgetLocked_get]

theorem get_forget_of_ne (t : InodeTable) (c : UInt64) {nid n : NodeId} (other : n ≠ nid) :
    (t.forget nid c).get n = t.get n := by
  unfold forget
  split
  · rfl
  · exact t.forgetLocked_get_of_ne c other

/-- A batch is its items one after the other. -/
theorem forgetMany_eq_foldl (t : InodeTable) (items : List (NodeId × UInt64)) :
    t.forgetMany items = items.foldl (fun t item => t.forget item.1 item.2) t := by
  induction items generalizing t with
  | nil => rfl
  | cons item items ih =>
    simp only [forgetMany, List.foldl_cons, forget]
    split <;> exact ih _

end InodeTable

end Fex
