import Mathlib.Data.List.Induction

/-!
# Counters that stop at zero

A counter goes up by one or down by any number, but never below zero: a `down` of more than is
there loses the rest. After a history in which the downs never get ahead of the ups nothing was
lost, and the counter is the difference (`Exact`). A history may take several downs at once:
only its state after all of them has to be in balance (`Exact.append_downs`).

The second part is about the histories of anything that holds a value for some time: whoever
holds a value now got it at one point and has held it since (`exists_origin`).
-/
namespace Fex.Foundation

inductive Change where
  | up
  | down (k : Nat)
  deriving DecidableEq

namespace Change

def apply (c : Nat) : Change → Nat
  | up => c + 1
  | down k => c - k

/-- The counter after a history, from zero. -/
def tally (history : List Change) : Nat := history.foldl apply 0

def ups (history : List Change) : Nat := history.count up

/-- How much a history asks to take away. -/
def downs : List Change → Nat
  | [] => 0
  | up :: later => downs later
  | down k :: later => k + downs later

@[simp] theorem tally_nil : tally [] = 0 := rfl

@[simp] theorem tally_append_up (history : List Change) :
    tally (history ++ [up]) = tally history + 1 := by
  simp [tally, apply]

@[simp] theorem tally_append_down (history : List Change) (k : Nat) :
    tally (history ++ [down k]) = tally history - k := by
  simp [tally, apply]

@[simp] theorem ups_nil : ups [] = 0 := rfl

@[simp] theorem ups_cons_up (later : List Change) : ups (up :: later) = ups later + 1 := by
  simp [ups]

@[simp] theorem ups_cons_down (k : Nat) (later : List Change) :
    ups (down k :: later) = ups later := by
  simp [ups]

@[simp] theorem ups_append (history later : List Change) :
    ups (history ++ later) = ups history + ups later := by
  simp [ups]

@[simp] theorem ups_downs (ks : List Nat) : ups (ks.map down) = 0 := by
  simp [ups, List.count_eq_zero]

@[simp] theorem downs_append (history later : List Change) :
    downs (history ++ later) = downs history + downs later := by
  induction history with
  | nil => simp [downs]
  | cons change history ih =>
    cases change with
    | up => simp [downs, ih]
    | down k => simp [downs, ih, Nat.add_assoc]

theorem tally_le_ups (history : List Change) : tally history ≤ ups history := by
  induction history using List.reverseRecOn with
  | nil => simp
  | append_singleton history change ih =>
    cases change with
    | up => simpa using ih
    | down k =>
      simp only [tally_append_down, ups_append, ups_cons_down, ups_nil]
      omega

/-- Nothing was lost at zero. -/
def Exact (history : List Change) : Prop := tally history + downs history = ups history

theorem Exact.nil : Exact [] := rfl

theorem Exact.append_up {history : List Change} (exact : Exact history) :
    Exact (history ++ [up]) := by
  simp only [Exact, tally_append_up, ups_append, downs_append, ups_cons_up, downs,
    ups_nil] at exact ⊢
  omega

theorem Exact.append_down {history : List Change} (exact : Exact history) {k : Nat}
    (enough : k ≤ tally history) : Exact (history ++ [down k]) := by
  simp only [Exact, tally_append_down, ups_append, downs_append, ups_cons_down, downs,
    ups_nil] at exact ⊢
  omega

theorem Exact.append_downs {history : List Change} (exact : Exact history) (ks : List Nat)
    (balanced : downs (history ++ ks.map down) ≤ ups (history ++ ks.map down)) :
    Exact (history ++ ks.map down) := by
  induction ks generalizing history with
  | nil => simpa using exact
  | cons k ks ih =>
    -- The first of them takes no more than is there, because all of them together do not.
    have enough : k ≤ tally history := by
      simp only [Exact, List.map_cons, downs_append, ups_append, downs, ups_cons_down,
        ups_downs] at exact balanced
      omega
    have rest := ih (exact.append_down enough)
    simp only [List.append_assoc, List.singleton_append] at rest
    exact rest balanced

end Change

section Origin

variable {S O α : Type} (step : S → O → S) (held : S → Option α) (brings : O → α → Prop)

/-- If a value only ever comes in when nothing is held, then what is held after a run came in at
one point of it, and was held ever since. -/
theorem exists_origin
    (comes : ∀ s o a, held (step s o) = some a → held s = some a ∨ (held s = none ∧ brings o a))
    {s : S} (empty : held s = none) (history : List O) {a : α}
    (holds : held (history.foldl step s) = some a) :
    ∃ before o after, history = before ++ o :: after ∧ brings o a ∧
      held (before.foldl step s) = none ∧
      ∀ sofar, sofar <+: after → held ((before ++ o :: sofar).foldl step s) = some a := by
  induction history using List.reverseRecOn with
  | nil =>
    rw [List.foldl_nil, empty] at holds
    cases holds
  | append_singleton history last ih =>
    have now := holds
    rw [List.foldl_append, List.foldl_cons, List.foldl_nil] at holds
    rcases comes _ last a holds with old | ⟨nothing, brought⟩
    · obtain ⟨before, o, after, rfl, brought, nothing, since⟩ := ih old
      refine ⟨before, o, after ++ [last], by simp, brought, nothing, ?_⟩
      intro sofar part
      rcases List.prefix_concat_iff.mp part with rfl | part
      · simpa using now
      · exact since sofar part
    · refine ⟨history, last, [], rfl, brought, nothing, ?_⟩
      intro sofar part
      rw [List.prefix_nil.mp part]
      exact now

end Origin

end Fex.Foundation
