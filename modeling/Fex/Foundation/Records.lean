import Mathlib.Data.List.Basic

/-!
# Streams of variable-length records

A reader that takes one record off the front of its input is repeated until nothing is
left. `walk_flatMap` says that it finds the records that were concatenated, `walk_forall`
that whatever it finds has the properties of single records.
-/
namespace Fex.Foundation

variable {α β γ : Type}

/-- Read records until the input is used up; the fuel bounds their number. -/
def walk (reader : List β → Option (α × List β)) : Nat → List β → Option (List α)
  | _, [] => some []
  | 0, _ :: _ => none
  | fuel + 1, b :: bs =>
    match reader (b :: bs) with
    | none => none
    | some (record, rest) => (walk reader fuel rest).map (record :: ·)

variable {reader : List β → Option (α × List β)}

/-- Records that can be read back one by one can be read back from their concatenation. -/
theorem walk_flatMap (writer : γ → List β) (view : γ → α) (records : List γ)
    (nonempty : ∀ c, writer c ≠ [])
    (reads : ∀ c ∈ records, ∀ rest, reader (writer c ++ rest) = some (view c, rest))
    (fuel : Nat) (enough : (records.flatMap writer).length ≤ fuel) :
    walk reader fuel (records.flatMap writer) = some (records.map view) := by
  induction records generalizing fuel with
  | nil =>
    cases fuel <;> rfl
  | cons c records ih =>
    rw [List.flatMap_cons] at enough ⊢
    have read := reads c List.mem_cons_self (records.flatMap writer)
    have later : ∀ c ∈ records, ∀ rest, reader (writer c ++ rest) = some (view c, rest) :=
      fun c member => reads c (List.mem_cons_of_mem _ member)
    -- The record is not empty, so the walk makes a step and has fuel for it.
    obtain ⟨b, bs, front⟩ := List.exists_cons_of_ne_nil (nonempty c)
    rw [front, List.cons_append] at enough read ⊢
    cases fuel with
    | zero => simp at enough
    | succ fuel =>
      simp only [List.length_cons, List.length_append] at enough
      have rest := ih later fuel (by omega)
      simp [walk, read, rest]

theorem walk_forall {P : α → Prop}
    (sound : ∀ bs record rest, reader bs = some (record, rest) → P record) (fuel : Nat)
    (bs : List β) (records : List α) (walked : walk reader fuel bs = some records) :
    ∀ record ∈ records, P record := by
  induction fuel generalizing bs records with
  | zero =>
    cases bs with
    | nil =>
      cases walked
      exact List.forall_mem_nil _
    | cons b bs => cases walked
  | succ fuel ih =>
    cases bs with
    | nil =>
      cases walked
      exact List.forall_mem_nil _
    | cons b bs =>
      rw [walk] at walked
      cases read : reader (b :: bs) with
      | none =>
        rw [read] at walked
        cases walked
      | some found =>
        obtain ⟨record, rest⟩ := found
        rw [read] at walked
        obtain ⟨others, later, rfl⟩ := Option.map_eq_some_iff.mp walked
        exact List.forall_mem_cons.mpr ⟨sound _ _ _ read, ih rest others later⟩

end Fex.Foundation
