/-!
# Reading a list in pages

A reader takes a list page by page, each page from where the last one ended. As long as a page is
empty only at the end of the list, the pages put together are the list, read so far
(`Pages.flatten_prefix`), and the list as a whole once there is an empty page (`Pages.of_empty`)
or there are enough pages (`Pages.complete`).
-/
namespace Fex.Foundation

variable {α : Type}

/-- `pages` continue `items` from position `p`. -/
inductive Pages (items : List α) : Nat → List (List α) → Prop where
  | done (p : Nat) : Pages items p []
  | page {p : Nat} {page : List α} {pages : List (List α)} :
      page <+: items.drop p → (page = [] → items.length ≤ p) →
      Pages items (p + page.length) pages → Pages items p (page :: pages)

namespace Pages

variable {items page : List α} {p : Nat} {pages : List (List α)}

/-- What is left behind a page. -/
theorem append_drop (front : page <+: items.drop p) :
    page ++ items.drop (p + page.length) = items.drop p := by
  obtain ⟨rest, whole⟩ := front
  rw [← List.drop_drop, ← whole, List.drop_left]

theorem flatten_prefix (paged : Pages items p pages) : pages.flatten <+: items.drop p := by
  induction paged with
  | done p => exact List.nil_prefix
  | page front _ _ ih =>
    rw [List.flatten_cons, ← append_drop front]
    exact (List.prefix_append_right_inj _).mpr ih

/-- An empty page comes only when the pages before it are the whole list. -/
theorem of_empty {before after : List (List α)} (paged : Pages items p (before ++ [] :: after)) :
    before.flatten = items.drop p := by
  induction before generalizing p with
  | nil =>
    cases paged with
    | page _ ends _ => exact (List.drop_eq_nil_of_le (ends rfl)).symm
  | cons page before ih =>
    cases paged with
    | page front _ later => rw [List.flatten_cons, ih later, append_drop front]

theorem complete (paged : Pages items p pages) (many : items.length < p + pages.length) :
    pages.flatten = items.drop p := by
  induction paged with
  | done p =>
    rw [List.length_nil, Nat.add_zero] at many
    rw [List.drop_eq_nil_of_le (Nat.le_of_lt many), List.flatten_nil]
  | @page p page pages front ends later ih =>
    rw [List.flatten_cons, ← append_drop front]
    rw [List.length_cons] at many
    by_cases empty : page = []
    · -- Nothing is left, so nothing follows.
      subst empty
      have none : items.drop p = [] := List.drop_eq_nil_of_le (ends rfl)
      have nothing := later.flatten_prefix
      simp only [List.length_nil, Nat.add_zero, none, List.prefix_nil] at nothing
      rw [nothing, List.length_nil, Nat.add_zero, none]
    · have some := List.length_pos_iff.mpr empty
      rw [ih (by omega)]

end Pages

end Fex.Foundation
