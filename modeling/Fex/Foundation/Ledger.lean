import Mathlib.Data.List.Infix
import Mathlib.Logic.Function.Basic
import Fex.Foundation.Transition

/-!
# Resources with one owner

A ledger says who owns each resource, and keeps a log of the resources that were acquired,
released and closed. A resource has at most one owner: that is the type of `owner`. Its
entries in the log take turns: it is acquired without an owner, and released or closed by the
one it has (`Alternates`). So every acquisition is matched by one release, one close or the
present owner (`conserved`), and a resource that is not acquired again after it was closed is
closed at most once (`closed_le_one`).
-/
namespace Fex.Foundation

inductive LedgerEvent (R : Type) where
  | acquired (r : R)
  | released (r : R)
  | closed (r : R)
  deriving DecidableEq

def LedgerEvent.resource {R : Type} : LedgerEvent R → R
  | acquired r | released r | closed r => r

/-! ### The entries of one resource -/

namespace Ledger

variable {R : Type}

/-- The entries of `r` in a log take turns; the flag says whether it is owned at the end. -/
inductive Alternates (r : R) : List (LedgerEvent R) → Bool → Prop where
  | empty : Alternates r [] false
  | acquired {log : List (LedgerEvent R)} :
      Alternates r log false → Alternates r (log ++ [.acquired r]) true
  | released {log : List (LedgerEvent R)} :
      Alternates r log true → Alternates r (log ++ [.released r]) false
  | closed {log : List (LedgerEvent R)} :
      Alternates r log true → Alternates r (log ++ [.closed r]) false
  | other {log : List (LedgerEvent R)} {owned : Bool} {e : LedgerEvent R} :
      e.resource ≠ r → Alternates r log owned → Alternates r (log ++ [e]) owned

/-- `r` is not acquired again once it was closed. -/
def NotReacquired (r : R) (log : List (LedgerEvent R)) : Prop :=
  ∀ before after, log = before ++ .closed r :: after → .acquired r ∉ after

theorem NotReacquired.of_append {r : R} {log : List (LedgerEvent R)} {e : LedgerEvent R}
    (kept : NotReacquired r (log ++ [e])) : NotReacquired r log := by
  intro before after split again
  refine kept before (after ++ [e]) ?_ (List.mem_append_left _ again)
  rw [split, List.append_assoc, List.cons_append]

variable [DecidableEq R]

namespace Alternates

variable {r : R} {log : List (LedgerEvent R)} {owned : Bool}

theorem conserved (alternates : Alternates r log owned) :
    log.count (.closed r) + log.count (.released r) + owned.toNat = log.count (.acquired r) := by
  induction alternates with
  | empty => rfl
  | acquired _ ih =>
    simp only [List.count_append, List.count_singleton, Bool.toNat_false] at ih ⊢
    simp [← ih]
  | released _ ih =>
    simp only [List.count_append, List.count_singleton, Bool.toNat_true] at ih ⊢
    simp [← ih, Nat.add_assoc]
  | closed _ ih =>
    simp only [List.count_append, List.count_singleton, Bool.toNat_true] at ih ⊢
    simp [← ih, Nat.add_assoc, Nat.add_comm]
  | @other log owned e foreign _ ih =>
    have none : ∀ e' : LedgerEvent R, e'.resource = r → [e].count e' = 0 := by
      intro e' own
      refine List.count_eq_zero.mpr ?_
      intro member
      rw [List.mem_singleton.mp member] at own
      exact foreign own
    simp only [List.count_append, none _ (rfl : (LedgerEvent.closed r).resource = r),
      none _ (rfl : (LedgerEvent.released r).resource = r),
      none _ (rfl : (LedgerEvent.acquired r).resource = r), Nat.add_zero]
    exact ih

/-- Once closed, not owned again, and so not closed again. -/
theorem closed_once (alternates : Alternates r log owned) (kept : NotReacquired r log) :
    (.closed r ∈ log → owned = false) ∧ log.count (.closed r) ≤ 1 := by
  induction alternates with
  | empty => simp
  | @acquired log _ _ =>
    -- Had it been closed, this would be the acquisition that must not come.
    have never : .closed r ∉ log := by
      intro closed
      obtain ⟨before, after, split⟩ := List.append_of_mem closed
      refine kept before (after ++ [.acquired r]) ?_ (List.mem_append_right _ (by simp))
      rw [split, List.append_assoc, List.cons_append]
    simp [List.count_append, List.count_eq_zero.mpr never, never]
  | @released log _ ih =>
    have before := ih kept.of_append
    refine ⟨fun _ => rfl, ?_⟩
    simpa [List.count_append] using before.2
  | @closed log _ ih =>
    have never : .closed r ∉ log := fun closed => Bool.noConfusion ((ih kept.of_append).1 closed)
    refine ⟨fun _ => rfl, ?_⟩
    simp [List.count_append, List.count_eq_zero.mpr never]
  | @other log owned e foreign _ ih =>
    have before := ih kept.of_append
    have different : .closed r ≠ e := by
      rintro rfl
      exact foreign rfl
    simp only [List.mem_append, List.mem_singleton, different, or_false, List.count_append,
      List.count_singleton, beq_iff_eq, Ne.symm different, if_false, Nat.add_zero]
    exact before

end Alternates

end Ledger

/-! ### Ledgers -/

structure Ledger (R W : Type) where
  owner : R → Option W := fun _ => none
  log : List (LedgerEvent R) := []

inductive LedgerAction (R W : Type) where
  | acquire (r : R) (w : W)
  | move (r : R) (w : W)
  | release (r : R)
  | close (r : R)

namespace Ledger

variable {R W : Type} [DecidableEq R]

/-- What has no owner can be acquired; anything else is done by an owner. -/
def next (l : Ledger R W) : LedgerAction R W → Option (Ledger R W)
  | .acquire r w =>
    match l.owner r with
    | none => some ⟨Function.update l.owner r (some w), l.log ++ [.acquired r]⟩
    | some _ => none
  | .move r w => (l.owner r).map fun _ => { l with owner := Function.update l.owner r (some w) }
  | .release r => (l.owner r).map fun _ => ⟨Function.update l.owner r none, l.log ++ [.released r]⟩
  | .close r => (l.owner r).map fun _ => ⟨Function.update l.owner r none, l.log ++ [.closed r]⟩

def machine : Machine (Ledger R W) (LedgerAction R W) where
  initial l := l = {}
  next := next

section Actions

variable {l : Ledger R W} {r : R}

theorem exec_acquire (free : l.owner r = none) (w : W) :
    machine.exec l [.acquire r w] =
      some ⟨Function.update l.owner r (some w), l.log ++ [.acquired r]⟩ := by
  simp [Machine.exec, machine, next, free]

variable {w : W} (owned : l.owner r = some w)
include owned

theorem exec_move (w' : W) :
    machine.exec l [.move r w'] =
      some { l with owner := Function.update l.owner r (some w') } := by
  simp [Machine.exec, machine, next, owned]

theorem exec_release :
    machine.exec l [.release r] =
      some ⟨Function.update l.owner r none, l.log ++ [.released r]⟩ := by
  simp [Machine.exec, machine, next, owned]

theorem exec_close :
    machine.exec l [.close r] = some ⟨Function.update l.owner r none, l.log ++ [.closed r]⟩ := by
  simp [Machine.exec, machine, next, owned]

end Actions

/-- The log of every resource is in order, and says whether it is owned. -/
def Accounted (l : Ledger R W) : Prop := ∀ r, Alternates r l.log (l.owner r).isSome

theorem Accounted.update {l : Ledger R W} (accounted : Accounted l) {r : R} {owner : Option W}
    {e : LedgerEvent R} (own : e.resource = r) (turn : Alternates r (l.log ++ [e]) owner.isSome) :
    Accounted ⟨Function.update l.owner r owner, l.log ++ [e]⟩ := by
  intro r'
  by_cases same : r' = r
  · subst same
    simpa only [Function.update_self] using turn
  · have foreign : e.resource ≠ r' := by
      rw [own]
      exact Ne.symm same
    simpa only [Function.update_of_ne same] using .other foreign (accounted r')

omit [DecidableEq R] in
theorem Accounted.held {l : Ledger R W} (accounted : Accounted l) {r : R} {w : W}
    (owned : l.owner r = some w) : Alternates r l.log true := by
  have turn := accounted r
  rwa [owned] at turn

theorem next_accounted (l : Ledger R W) (a : LedgerAction R W) (l' : Ledger R W)
    (accounted : Accounted l) (taken : l.next a = some l') : Accounted l' := by
  cases a with
  | acquire r w =>
    simp only [next] at taken
    split at taken
    next free =>
      cases taken
      have turn := accounted r
      rw [free] at turn
      exact accounted.update rfl (.acquired turn)
    · cases taken
  | move r w =>
    simp only [next, Option.map_eq_some_iff] at taken
    obtain ⟨old, has, rfl⟩ := taken
    intro r'
    have turn := accounted r'
    by_cases same : r' = r
    · subst same
      simpa only [Function.update_self, has, Option.isSome_some] using turn
    · simpa only [Function.update_of_ne same] using turn
  | release r =>
    simp only [next, Option.map_eq_some_iff] at taken
    obtain ⟨old, has, rfl⟩ := taken
    exact accounted.update rfl (.released (accounted.held has))
  | close r =>
    simp only [next, Option.map_eq_some_iff] at taken
    obtain ⟨old, has, rfl⟩ := taken
    exact accounted.update rfl (.closed (accounted.held has))

theorem accounted_of_reachable {l : Ledger R W} (reachable : machine.Reachable l) :
    Accounted l := by
  refine reachable.invariant Accounted ?_ ?_
  · rintro l rfl r
    exact .empty
  · intro l a l' _ accounted taken
    exact next_accounted l a l' accounted taken

end Ledger

end Fex.Foundation
