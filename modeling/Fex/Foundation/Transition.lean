/-!
# State machines and their runs

A machine says where a run may start and what an action does in a state, if it is
possible there. `ReachableBy allowed` collects the states of the runs all of whose
actions were allowed where they were taken; an invariant is shown by one induction,
packaged in `ReachableBy.invariant`.
-/
namespace Fex.Foundation

structure Machine (S A : Type) where
  initial : S → Prop
  next : S → A → Option S

namespace Machine

variable {S A : Type} (M : Machine S A)

/-- The states of the runs whose actions are allowed where they are taken. -/
inductive ReachableBy (allowed : S → A → Prop) : S → Prop where
  | start {s : S} : M.initial s → ReachableBy allowed s
  | step {s s' : S} {a : A} : ReachableBy allowed s → allowed s a → M.next s a = some s' →
      ReachableBy allowed s'

/-- The states of all runs. -/
abbrev Reachable (s : S) : Prop := M.ReachableBy (fun _ _ => True) s

variable {M} {allowed : S → A → Prop}

/-- What holds at the start and is kept by every allowed action holds along the run. -/
theorem ReachableBy.invariant (inv : S → Prop) (initial : ∀ s, M.initial s → inv s)
    (step : ∀ s a s', allowed s a → inv s → M.next s a = some s' → inv s') {s : S}
    (reachable : M.ReachableBy allowed s) : inv s := by
  induction reachable with
  | start begins => exact initial _ begins
  | step _ permitted taken ih => exact step _ _ _ permitted ih taken

variable (M)

/-- Take a list of actions in order. -/
def exec : S → List A → Option S
  | s, [] => some s
  | s, a :: rest => (M.next s a).bind fun s' => exec s' rest

variable {M}

theorem exec_append (s : S) (first later : List A) :
    M.exec s (first ++ later) = (M.exec s first).bind fun s' => M.exec s' later := by
  induction first generalizing s with
  | nil => rfl
  | cons a rest ih => simp only [List.cons_append, exec, ih, Option.bind_assoc]

/-- A list of actions that are allowed anywhere extends a run. -/
theorem ReachableBy.exec {s s' : S} (reachable : M.ReachableBy allowed s) (actions : List A)
    (permitted : ∀ s, ∀ a ∈ actions, allowed s a) (ends : M.exec s actions = some s') :
    M.ReachableBy allowed s' := by
  induction actions generalizing s with
  | nil =>
    cases ends
    exact reachable
  | cons a rest ih =>
    obtain ⟨here, later⟩ := Option.bind_eq_some_iff.mp ends
    have first := permitted s a List.mem_cons_self
    exact ih (.step reachable first later.1)
      (fun v b member => permitted v b (List.mem_cons_of_mem _ member)) later.2

/-- What every action keeps holds at the end of a run from wherever it holds. -/
theorem exec_invariant (inv : S → Prop)
    (step : ∀ s a s', inv s → M.next s a = some s' → inv s') {s s' : S} (holds : inv s)
    (actions : List A) (ends : M.exec s actions = some s') : inv s' := by
  induction actions generalizing s with
  | nil =>
    cases ends
    exact holds
  | cons a rest ih =>
    obtain ⟨mid, taken, later⟩ := Option.bind_eq_some_iff.mp ends
    exact ih (step s a mid holds taken) later

/-- If `measure` pays for every obliged action and each other one adds at most `extra`, then it
bounds how long a run is. -/
theorem exec_length_le (inv : S → Prop) (measure : S → Nat) (obliged : A → Bool) (extra : Nat)
    (step : ∀ s a s', inv s → M.next s a = some s' →
      inv s' ∧ measure s' + 1 ≤ measure s + if obliged a then 0 else extra)
    {s s' : S} (holds : inv s) (actions : List A) (ends : M.exec s actions = some s') :
    actions.length + measure s' ≤
      measure s + extra * actions.countP fun a => !obliged a := by
  induction actions generalizing s with
  | nil =>
    cases ends
    simp
  | cons a rest ih =>
    obtain ⟨mid, taken, later⟩ := Option.bind_eq_some_iff.mp ends
    obtain ⟨kept, paid⟩ := step s a mid holds taken
    have bound := ih kept later
    cases due : obliged a with
    | true =>
      rw [due, if_pos rfl] at paid
      rw [List.countP_cons_of_neg (by simp [due]), List.length_cons]
      omega
    | false =>
      rw [due, if_neg Bool.false_ne_true] at paid
      rw [List.countP_cons_of_pos (by simp [due]), List.length_cons, Nat.mul_succ]
      omega

variable (M) (allowed)

/-- The same, as long as each action is allowed where it is taken. -/
def execBy [∀ s a, Decidable (allowed s a)] : S → List A → Option S
  | s, [] => some s
  | s, a :: rest =>
    if allowed s a then (M.next s a).bind fun s' => execBy s' rest else none

variable {M} {allowed}

theorem ReachableBy.execBy [∀ s a, Decidable (allowed s a)] {s s' : S}
    (reachable : M.ReachableBy allowed s) (actions : List A)
    (ends : M.execBy allowed s actions = some s') : M.ReachableBy allowed s' := by
  induction actions generalizing s with
  | nil =>
    cases ends
    exact reachable
  | cons a rest ih =>
    obtain ⟨permitted, taken⟩ := Option.ite_none_right_eq_some.mp ends
    obtain ⟨here, later⟩ := Option.bind_eq_some_iff.mp taken
    exact ih (.step reachable permitted later.1) later.2

theorem execBy_eq_exec [∀ s a, Decidable (allowed s a)] {s s' : S} {actions : List A}
    (ends : M.execBy allowed s actions = some s') : M.exec s actions = some s' := by
  induction actions generalizing s with
  | nil => exact ends
  | cons a rest ih =>
    obtain ⟨-, taken⟩ := Option.ite_none_right_eq_some.mp ends
    obtain ⟨here, next, later⟩ := Option.bind_eq_some_iff.mp taken
    exact Option.bind_eq_some_iff.mpr ⟨here, next, ih later⟩

/-- The run may be evaluated apart from what is allowed in it. -/
theorem ReachableBy.exec_permitted [∀ s a, Decidable (allowed s a)] {s s' : S}
    (reachable : M.ReachableBy allowed s) {actions : List A}
    (permitted : (M.execBy allowed s actions).isSome = true)
    (ends : M.exec s actions = some s') : M.ReachableBy allowed s' := by
  obtain ⟨t, ran⟩ := Option.isSome_iff_exists.mp permitted
  obtain rfl : t = s' := Option.some.inj ((execBy_eq_exec ran).symm.trans ends)
  exact reachable.execBy actions ran

end Machine

end Fex.Foundation
