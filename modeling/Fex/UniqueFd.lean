import Mathlib.Logic.Function.Basic
import Fex.Foundation.Ledger

/-!
# Owning descriptors

`UniqueFd` of `session.hpp`, and any number of wrappers in use: the objects that exist, under
the number of their storage, and a log of the descriptors that were handed in, given back by
`release` and closed.
-/
namespace Fex

open Foundation

/-- A wrapper; a negative `fd_` is no descriptor. -/
structure UniqueFd where
  fd : Int32 := -1
  deriving DecidableEq

namespace UniqueFd

/-- `reset`, with the calls of `close` it makes. -/
def reset (u : UniqueFd) (fd : Int32) : UniqueFd × List Int32 :=
  ({ fd }, if u.fd ≥ 0 ∧ u.fd ≠ fd then [u.fd] else [])

/-- `release`: the descriptor, and the wrapper without it. -/
def release (u : UniqueFd) : Int32 × UniqueFd := (u.fd, { fd := -1 })

/-- The move constructor: the new wrapper, and the one it was made from. -/
def moveConstruct (o : UniqueFd) : UniqueFd × UniqueFd := ({ fd := o.fd }, { fd := -1 })

/-- Move assignment between two objects: both of them, and the calls of `close`. -/
def moveAssign (u o : UniqueFd) : UniqueFd × UniqueFd × List Int32 :=
  ((u.reset o.fd).1, { fd := -1 }, (u.reset o.fd).2)

/-- The destructor: its calls of `close`. -/
def destroy (u : UniqueFd) : List Int32 := (u.reset (-1)).2

end UniqueFd

inductive FdOp where
  | construct (i : Nat) (fd : Int32)
  | moveConstruct (i o : Nat)
  | moveAssign (i o : Nat)
  | reset (i : Nat) (fd : Int32)
  | release (i : Nat)
  | destroy (i : Nat)

structure FdState where
  wrappers : Nat → Option UniqueFd := fun _ => none
  log : List (LedgerEvent Int32) := []

namespace FdState

/-- Wrapper `i` exists and holds `fd`. -/
def Holds (s : FdState) (i : Nat) (fd : Int32) : Prop := (s.wrappers i).map UniqueFd.fd = some fd

/-- `i` becomes `u`, and `events` happen. -/
def put (s : FdState) (i : Nat) (u : Option UniqueFd) (events : List (LedgerEvent Int32) := []) :
    FdState :=
  ⟨Function.update s.wrappers i u, s.log ++ events⟩

@[simp] theorem wrappers_put (s : FdState) (i : Nat) (u : Option UniqueFd)
    (events : List (LedgerEvent Int32)) : (s.put i u events).wrappers i = u :=
  Function.update_self ..

theorem wrappers_put_of_ne (s : FdState) {i j : Nat} (other : j ≠ i) (u : Option UniqueFd)
    (events : List (LedgerEvent Int32)) : (s.put i u events).wrappers j = s.wrappers j :=
  Function.update_of_ne other ..

/-- A raw descriptor comes in, if it is one. -/
def handed (fd : Int32) : List (LedgerEvent Int32) := if fd ≥ 0 then [.acquired fd] else []

/-- An operation on wrappers: it needs storage without an object for a constructor, and objects
for everything else. -/
def next (s : FdState) : FdOp → Option FdState
  | .construct i fd =>
    match s.wrappers i with
    | none => some (s.put i (some { fd }) (handed fd))
    | some _ => none
  | .moveConstruct i o =>
    match s.wrappers i, s.wrappers o with
    | none, some src =>
      some ((s.put i (some src.moveConstruct.1)).put o (some src.moveConstruct.2))
    | _, _ => none
  | .moveAssign i o =>
    match s.wrappers i, s.wrappers o with
    | some this, some src =>
      if i = o then some s
      else
        let (this', src', closed) := this.moveAssign src
        some ((s.put i (some this') (closed.map .closed)).put o (some src'))
    | _, _ => none
  | .reset i fd =>
    match s.wrappers i with
    | some this =>
      let (this', closed) := this.reset fd
      -- The wrapper's own descriptor is not handed in once more.
      some (s.put i (some this')
        (closed.map .closed ++ if fd = this.fd then [] else handed fd))
    | none => none
  | .release i =>
    match s.wrappers i with
    | some this =>
      let (fd, this') := this.release
      some (s.put i (some this') (if fd ≥ 0 then [.released fd] else []))
    | none => none
  | .destroy i =>
    match s.wrappers i with
    | some this => some (s.put i none (this.destroy.map .closed))
    | none => none

/-- What an operation can do, one case per way through it. -/
inductive Step (s : FdState) : FdOp → FdState → Prop where
  | construct {i : Nat} {fd : Int32} (vacant : s.wrappers i = none) :
      Step s (.construct i fd) (s.put i (some { fd }) (handed fd))
  | moveConstruct {i o : Nat} {src : UniqueFd} (vacant : s.wrappers i = none)
      (source : s.wrappers o = some src) :
      Step s (.moveConstruct i o)
        ((s.put i (some src.moveConstruct.1)).put o (some src.moveConstruct.2))
  | selfAssign {i : Nat} : Step s (.moveAssign i i) s
  | moveAssign {i o : Nat} {this src : UniqueFd} (distinct : i ≠ o)
      (present : s.wrappers i = some this) (source : s.wrappers o = some src) :
      Step s (.moveAssign i o) ((s.put i (some (this.moveAssign src).1)
        ((this.moveAssign src).2.2.map .closed)).put o (some (this.moveAssign src).2.1))
  | reset {i : Nat} {fd : Int32} {this : UniqueFd} (present : s.wrappers i = some this) :
      Step s (.reset i fd) (s.put i (some (this.reset fd).1)
        ((this.reset fd).2.map .closed ++ if fd = this.fd then [] else handed fd))
  | release {i : Nat} {this : UniqueFd} (present : s.wrappers i = some this) :
      Step s (.release i) (s.put i (some this.release.2)
        (if this.release.1 ≥ 0 then [.released this.release.1] else []))
  | destroy {i : Nat} {this : UniqueFd} (present : s.wrappers i = some this) :
      Step s (.destroy i) (s.put i none (this.destroy.map .closed))

theorem next_step {s s' : FdState} {op : FdOp} (taken : s.next op = some s') : Step s op s' := by
  cases op with
  | construct i fd =>
    simp only [next] at taken
    split at taken <;> cases taken
    next vacant => exact .construct vacant
  | moveConstruct i o =>
    simp only [next] at taken
    split at taken <;> cases taken
    next vacant source => exact .moveConstruct vacant source
  | moveAssign i o =>
    simp only [next] at taken
    split at taken
    next this src present source =>
      split at taken <;> cases taken
      next same =>
        subst same
        exact .selfAssign
      next distinct => exact .moveAssign distinct present source
    · cases taken
  | reset i fd =>
    simp only [next] at taken
    split at taken <;> cases taken
    next present => exact .reset present
  | release i =>
    simp only [next] at taken
    split at taken <;> cases taken
    next present => exact .release present
  | destroy i =>
    simp only [next] at taken
    split at taken <;> cases taken
    next present => exact .destroy present

def machine : Machine FdState FdOp where
  initial s := s = {}
  next := next

/-- A raw descriptor that is handed in belongs to no other wrapper. -/
def HandsIn (s : FdState) : FdOp → Prop
  | .construct i fd | .reset i fd => 0 ≤ fd → ∀ j, s.Holds j fd → j = i
  | _ => True

end FdState

end Fex
