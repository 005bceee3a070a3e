import Fex.UniqueFd

/-!
# Descriptors are owned once and closed once

## Main results

- `fds_owned_once`: as long as a raw descriptor that is handed in belongs to no other wrapper, no
  descriptor is held twice, none is closed while it is held, and every time it was handed in is
  matched by one close, one release or the wrapper that holds it. A descriptor that is not
  handed in again after it was closed is closed at most once.
- `closed_twice`: nothing keeps a number from being handed in again after it was closed.

## Proof strategy

The wrappers refine a ledger, in which a descriptor has at most one owner (`Tracks`). An
operation empties a wrapper (`Sim.empty`), fills an empty one (`Sim.take`) or moves a descriptor
from one to another (`Sim.transfer`), each of which is at most one action on the ledger; move
assignment and `reset` are two of them. What is promised is then what the ledger promises.
-/
namespace Fex

open Foundation

namespace FdState

/-! ### The ledger of the wrappers -/

structure Tracks (s : FdState) (l : Ledger Int32 Nat) : Prop where
  owner : ∀ i fd, 0 ≤ fd → (s.Holds i fd ↔ l.owner fd = some i)
  log : s.log = l.log

theorem Tracks.unique {s : FdState} {l : Ledger Int32 Nat} (tracks : Tracks s l) {i j : Nat}
    {fd : Int32} (real : 0 ≤ fd) (first : s.Holds i fd) (second : s.Holds j fd) : i = j := by
  have owner := ((tracks.owner i fd real).mp first).symm.trans ((tracks.owner j fd real).mp second)
  exact Option.some.inj owner

/-- No wrapper, or one without a descriptor. -/
def Idle (u : Option UniqueFd) : Prop := ∀ fd, 0 ≤ fd → u.map UniqueFd.fd ≠ some fd

theorem idle_none : Idle none := by
  intro fd _ held
  cases held

theorem ne_neg_one {fd : Int32} (real : 0 ≤ fd) : fd ≠ -1 := by
  rintro rfl
  exact absurd real (by decide)

theorem idle_of_neg {u : UniqueFd} (negative : u.fd < 0) : Idle (some u) := by
  intro fd real held
  rw [Option.map_some, Option.some.injEq] at held
  subst held
  exact absurd negative (Int32.not_lt.mpr real)

/-- A wrapper that was moved from or released. -/
theorem idle_left : Idle (some { fd := -1 }) := idle_of_neg (by decide)

theorem holds_put {s : FdState} {i j : Nat} {u : Option UniqueFd}
    {events : List (LedgerEvent Int32)} {fd : Int32} :
    (s.put i u events).Holds j fd ↔
      (j = i ∧ u.map UniqueFd.fd = some fd) ∨ (j ≠ i ∧ s.Holds j fd) := by
  by_cases same : j = i
  · subst same
    simp [Holds, put]
  · simp [Holds, put, same]

/-- A wrapper that did not hold `fd` and does not hold it now makes no difference to it. -/
theorem holds_put_of_not {s : FdState} {i : Nat} {u : Option UniqueFd}
    {events : List (LedgerEvent Int32)} {fd : Int32} (old : ¬s.Holds i fd)
    (new : u.map UniqueFd.fd ≠ some fd) (j : Nat) :
    (s.put i u events).Holds j fd ↔ s.Holds j fd := by
  rw [holds_put]
  by_cases same : j = i
  · subst same
    simp [old, new]
  · simp [same]

/-- From `s` to `s'` by actions on the ledger. -/
def Sim (s s' : FdState) : Prop :=
  ∀ l, Tracks s l → ∃ actions l', Ledger.machine.exec l actions = some l' ∧ Tracks s' l'

theorem Sim.refl (s : FdState) : Sim s s := fun l tracks => ⟨[], l, rfl, tracks⟩

theorem Sim.trans {s s' s'' : FdState} (first : Sim s s') (second : Sim s' s'') : Sim s s'' := by
  intro l tracks
  obtain ⟨actions, l', taken, tracks'⟩ := first l tracks
  obtain ⟨later, l'', taken', tracks''⟩ := second l' tracks'
  refine ⟨actions ++ later, l'', ?_, tracks''⟩
  rw [Machine.exec_append, taken]
  exact taken'

/-- A wrapper without a descriptor becomes another, or none. -/
theorem Sim.idle {s : FdState} {i : Nat} {u : Option UniqueFd} (old : Idle (s.wrappers i))
    (new : Idle u) : Sim s (s.put i u) := by
  intro l tracks
  refine ⟨[], l, rfl, ?_, ?_⟩
  · intro j fd real
    rw [← tracks.owner j fd real, holds_put_of_not (old fd real) (new fd real)]
  · simpa [put] using tracks.log

/-- A wrapper gives its descriptor up. -/
theorem Sim.drop {s : FdState} {i : Nat} {this : UniqueFd} {u : Option UniqueFd}
    {e : LedgerEvent Int32} (present : s.wrappers i = some this) (real : 0 ≤ this.fd)
    (new : Idle u) (ends : e = .closed this.fd ∨ e = .released this.fd) :
    Sim s (s.put i u [e]) := by
  intro l tracks
  have held : s.Holds i this.fd := by simp [Holds, present]
  have owner := (tracks.owner i this.fd real).mp held
  have after : Tracks (s.put i u [e]) ⟨Function.update l.owner this.fd none, l.log ++ [e]⟩ := by
    refine ⟨?_, by rw [put, tracks.log]⟩
    intro j fd nonneg
    by_cases own : fd = this.fd
    · -- Nobody holds it any more.
      subst own
      have others : ¬(j ≠ i ∧ s.Holds j this.fd) := fun other =>
        other.1 (tracks.unique real other.2 held)
      simp [holds_put, new _ real, others]
    · have elsewhere : ¬s.Holds i fd := by simp [Holds, present, Ne.symm own]
      simp only [holds_put_of_not elsewhere (new fd nonneg), tracks.owner j fd nonneg,
        Function.update_of_ne own]
  rcases ends with rfl | rfl
  · exact ⟨[.close this.fd], _, Ledger.exec_close owner, after⟩
  · exact ⟨[.release this.fd], _, Ledger.exec_release owner, after⟩

/-- A wrapper without a descriptor gets one that nobody holds. -/
theorem Sim.take {s : FdState} {i : Nat} {fd : Int32} (old : Idle (s.wrappers i)) (real : 0 ≤ fd)
    (free : ∀ j, ¬s.Holds j fd) : Sim s (s.put i (some { fd }) [.acquired fd]) := by
  intro l tracks
  have owner : l.owner fd = none := by
    cases owned : l.owner fd with
    | none => rfl
    | some j => exact absurd ((tracks.owner j fd real).mpr owned) (free j)
  refine ⟨[.acquire fd i], _, Ledger.exec_acquire owner i, ?_, by rw [put, tracks.log]⟩
  intro j fd' nonneg
  by_cases own : fd' = fd
  · subst own
    simp [holds_put, free j, eq_comm]
  · have new : (some { fd } : Option UniqueFd).map UniqueFd.fd ≠ some fd' := by
      simp [Ne.symm own]
    simp only [holds_put_of_not (old fd' nonneg) new, tracks.owner j fd' nonneg,
      Function.update_of_ne own]

/-- A descriptor goes from one wrapper to another that has none. -/
theorem Sim.transfer {s : FdState} {i o : Nat} {src : UniqueFd} (distinct : i ≠ o)
    (old : Idle (s.wrappers i)) (present : s.wrappers o = some src) :
    Sim s ((s.put i (some { fd := src.fd })).put o (some { fd := -1 })) := by
  by_cases real : 0 ≤ src.fd
  · intro l tracks
    have held : s.Holds o src.fd := by simp [Holds, present]
    have owner := (tracks.owner o src.fd real).mp held
    refine ⟨[.move src.fd i], _, Ledger.exec_move owner i, ?_, by simpa [put] using tracks.log⟩
    intro j fd nonneg
    by_cases own : fd = src.fd
    · -- It is now in `i`, and `o` has nothing.
      subst own
      rw [holds_put, holds_put]
      have others : j ≠ o → ¬s.Holds j src.fd := fun other holds =>
        other (tracks.unique real holds held)
      by_cases same : j = o
      · subst same
        simp [Ne.symm (ne_neg_one real), distinct]
      · simp [same, others same, eq_comm]
    · have elsewhere : ¬(s.put i (some { fd := src.fd })).Holds o fd := by
        simp [Holds, put, Ne.symm distinct, present, Ne.symm own]
      have new : (some { fd := src.fd } : Option UniqueFd).map UniqueFd.fd ≠ some fd := by
        simp [Ne.symm own]
      simp only [holds_put_of_not elsewhere (idle_left fd nonneg), holds_put_of_not (old fd nonneg) new,
        tracks.owner j fd nonneg, Function.update_of_ne own]
  · have negative := Int32.not_le.mp real
    refine (Sim.idle old (idle_of_neg negative)).trans (Sim.idle ?_ idle_left)
    rw [wrappers_put_of_ne _ (Ne.symm distinct), present]
    exact idle_of_neg negative

/-! ### Operations -/

/-- A wrapper gives up what it holds, if it holds anything. -/
theorem Sim.dropAny {s : FdState} {i : Nat} {this : UniqueFd} {u : Option UniqueFd}
    {e : LedgerEvent Int32} (present : s.wrappers i = some this) (new : Idle u)
    (ends : e = .closed this.fd ∨ e = .released this.fd) :
    Sim s (s.put i u (if this.fd ≥ 0 then [e] else [])) := by
  by_cases real : this.fd ≥ 0
  · rw [if_pos real]
    exact Sim.drop present real new ends
  · rw [if_neg real]
    refine Sim.idle ?_ new
    rw [present]
    exact idle_of_neg (Int32.not_le.mp real)

/-- A wrapper closes what it holds. -/
theorem Sim.empty {s : FdState} {i : Nat} {this : UniqueFd} {u : Option UniqueFd}
    (present : s.wrappers i = some this) (new : Idle u) :
    Sim s (s.put i u ((if this.fd ≥ 0 then [this.fd] else []).map .closed)) := by
  rw [apply_ite (List.map LedgerEvent.closed)]
  exact Sim.dropAny present new (.inl rfl)

/-- A wrapper without a descriptor gets the one that is handed in. -/
theorem Sim.hand {s : FdState} {i : Nat} {fd : Int32} (old : Idle (s.wrappers i))
    (free : 0 ≤ fd → ∀ j, ¬s.Holds j fd) : Sim s (s.put i (some { fd }) (handed fd)) := by
  unfold handed
  by_cases real : fd ≥ 0
  · rw [if_pos real]
    exact Sim.take old real (free real)
  · rw [if_neg real]
    exact Sim.idle old (idle_of_neg (Int32.not_le.mp real))

theorem put_put (s : FdState) (i : Nat) (u v : Option UniqueFd)
    (events later : List (LedgerEvent Int32)) :
    (s.put i u events).put i v later = s.put i v (events ++ later) := by
  simp [put]

theorem put_self {s : FdState} {i : Nat} {u : UniqueFd} (present : s.wrappers i = some u) :
    s.put i (some u) [] = s := by
  rw [put, ← present, Function.update_eq_self, List.append_nil]

theorem Sim.reset {s : FdState} {i : Nat} {this : UniqueFd} {fd : Int32}
    (present : s.wrappers i = some this) (handsIn : 0 ≤ fd → ∀ j, s.Holds j fd → j = i) :
    Sim s (s.put i (some (this.reset fd).1)
      ((this.reset fd).2.map .closed ++ if fd = this.fd then [] else handed fd)) := by
  by_cases own : fd = this.fd
  · -- Its own descriptor: nothing happens.
    subst own
    have same : s.put i (some (this.reset this.fd).1)
        ((this.reset this.fd).2.map .closed ++ if this.fd = this.fd then [] else handed this.fd) =
          s := by
      simpa [UniqueFd.reset] using put_self present
    rw [same]
    exact Sim.refl s
  · have closes : (this.reset fd).2 = if this.fd ≥ 0 then [this.fd] else [] := by
      simp [UniqueFd.reset, Ne.symm own]
    -- The old descriptor is closed, then the wrapper takes the new one.
    rw [closes, if_neg own, ← put_put s i (some { fd := -1 })]
    refine (Sim.empty present idle_left).trans (Sim.hand ?_ ?_)
    · rw [wrappers_put]
      exact idle_left
    · intro real j
      rw [holds_put]
      rintro (⟨_, held⟩ | ⟨other, held⟩)
      · exact idle_left fd real held
      · exact other (handsIn real j held)

theorem Sim.moveAssign {s : FdState} {i o : Nat} {this src : UniqueFd} (distinct : i ≠ o)
    (present : s.wrappers i = some this) (source : s.wrappers o = some src) :
    Sim s ((s.put i (some (this.moveAssign src).1)
      ((this.moveAssign src).2.2.map .closed)).put o (some (this.moveAssign src).2.1)) := by
  intro l tracks
  -- The two wrappers do not hold the same descriptor, so the old one is closed.
  have closes : (this.moveAssign src).2.2 = if this.fd ≥ 0 then [this.fd] else [] := by
    by_cases real : this.fd ≥ 0
    · have different : this.fd ≠ src.fd := by
        intro same
        refine distinct (tracks.unique real ?_ ?_)
        · simp [Holds, present]
        · simp [Holds, source, same]
      simp [UniqueFd.moveAssign, UniqueFd.reset, real, different]
    · simp [UniqueFd.moveAssign, UniqueFd.reset, real]
  have emptied := Sim.empty present idle_left
  let s₁ := s.put i (some { fd := -1 }) ((if this.fd ≥ 0 then [this.fd] else []).map .closed)
  have idle : Idle (s₁.wrappers i) := by
    rw [wrappers_put]
    exact idle_left
  have source₁ : s₁.wrappers o = some src := by
    rw [wrappers_put_of_ne _ (Ne.symm distinct), source]
  have moved := Sim.transfer distinct idle source₁
  rw [put_put, List.append_nil] at moved
  rw [closes]
  exact emptied.trans moved l tracks

/-- The caller owns the descriptor now. -/
theorem Sim.release {s : FdState} {i : Nat} {this : UniqueFd}
    (present : s.wrappers i = some this) :
    Sim s (s.put i (some { fd := -1 }) (if this.fd ≥ 0 then [.released this.fd] else [])) :=
  Sim.dropAny present idle_left (.inr rfl)

theorem Sim.destroy {s : FdState} {i : Nat} {this : UniqueFd}
    (present : s.wrappers i = some this) : Sim s (s.put i none (this.destroy.map .closed)) := by
  have closes : this.destroy = if this.fd ≥ 0 then [this.fd] else [] := by
    by_cases real : this.fd ≥ 0
    · simp [UniqueFd.destroy, UniqueFd.reset, real, ne_neg_one real]
    · simp [UniqueFd.destroy, UniqueFd.reset, real]
  rw [closes]
  exact Sim.empty present idle_none

theorem Sim.of_step {s s' : FdState} {op : FdOp} (step : Step s op s') (handsIn : s.HandsIn op) :
    Sim s s' := by
  cases step with
  | @construct i fd vacant =>
    have old : Idle (s.wrappers i) := by
      rw [vacant]
      exact idle_none
    refine Sim.hand old ?_
    intro real j held
    -- Only the new wrapper could hold it, and that one is not there yet.
    rw [handsIn real j held, Holds, vacant] at held
    cases held
  | @moveConstruct i o src vacant source =>
    have distinct : i ≠ o := by
      rintro rfl
      rw [vacant] at source
      cases source
    have old : Idle (s.wrappers i) := by
      rw [vacant]
      exact idle_none
    exact Sim.transfer distinct old source
  | selfAssign => exact Sim.refl s
  | moveAssign distinct present source => exact Sim.moveAssign distinct present source
  | reset present => exact Sim.reset present handsIn
  | release present => exact Sim.release present
  | destroy present => exact Sim.destroy present

/-- The wrappers always have a ledger. -/
theorem tracks_of_reachable {s : FdState} (reachable : machine.ReachableBy HandsIn s) :
    ∃ l, Ledger.machine.Reachable l ∧ Tracks s l := by
  refine reachable.invariant (fun s => ∃ l, Ledger.machine.Reachable l ∧ Tracks s l) ?_ ?_
  · rintro s rfl
    refine ⟨{}, .start rfl, ?_, rfl⟩
    intro i fd _
    simp [Holds]
  · rintro s op s' handsIn ⟨l, runs, tracks⟩ taken
    obtain ⟨actions, l', acts, tracks'⟩ := Sim.of_step (next_step taken) handsIn l tracks
    exact ⟨l', runs.exec actions (fun _ _ _ => trivial) acts, tracks'⟩

/-! ### Closing -/

theorem closed_mem_reset {u : UniqueFd} {new fd : Int32}
    (closed : LedgerEvent.closed fd ∈ (u.reset new).2.map LedgerEvent.closed) :
    fd = u.fd ∧ 0 ≤ u.fd ∧ u.fd ≠ new := by
  simp only [UniqueFd.reset, List.mem_map, LedgerEvent.closed.injEq, exists_eq_right] at closed
  split at closed
  next both => exact ⟨List.mem_singleton.mp closed, both⟩
  · cases closed

theorem closed_not_mem_handed (new fd : Int32) : .closed fd ∉ handed new := by
  unfold handed
  split <;> simp

/-- A wrapper that does not hold `fd` now gives it to nobody. -/
theorem holds_of_put {s : FdState} {i j : Nat} {u : Option UniqueFd}
    {events : List (LedgerEvent Int32)} {fd : Int32} (new : u.map UniqueFd.fd ≠ some fd)
    (held : (s.put i u events).Holds j fd) : j ≠ i ∧ s.Holds j fd := by
  rw [holds_put] at held
  rcases held with ⟨_, now⟩ | other
  · exact absurd now new
  · exact other

/-- What an operation closes was held by one wrapper, which does not hold it afterwards; no other
wrapper has got it. -/
theorem Step.holder_of_closed {s s' : FdState} {op : FdOp} (step : Step s op s')
    {events : List (LedgerEvent Int32)} (appended : s'.log = s.log ++ events) {fd : Int32}
    (closed : .closed fd ∈ events) :
    0 ≤ fd ∧ ∃ i, s.Holds i fd ∧ ∀ j, s'.Holds j fd → j ≠ i ∧ s.Holds j fd := by
  cases step with
  | construct vacant =>
    rw [← List.append_cancel_left appended] at closed
    exact absurd closed (closed_not_mem_handed _ _)
  | moveConstruct vacant source =>
    simp only [put, List.append_nil, List.self_eq_append_right] at appended
    subst appended
    cases closed
  | selfAssign =>
    rw [List.self_eq_append_right] at appended
    subst appended
    cases closed
  | @moveAssign i o this src distinct present source =>
    simp only [put, List.append_nil] at appended
    rw [← List.append_cancel_left appended] at closed
    obtain ⟨rfl, real, different⟩ := closed_mem_reset closed
    refine ⟨real, i, by simp [Holds, present], ?_⟩
    intro j held
    have assigned := (holds_of_put (by simpa [UniqueFd.moveAssign] using (ne_neg_one real).symm)
      held).2
    exact holds_of_put (by simpa [UniqueFd.moveAssign, UniqueFd.reset] using different.symm)
      assigned
  | @reset i new this present =>
    rw [← List.append_cancel_left appended, List.mem_append] at closed
    have calls : .closed fd ∈ (this.reset new).2.map LedgerEvent.closed := by
      rcases closed with calls | comes
      · exact calls
      · split at comes
        · cases comes
        · exact absurd comes (closed_not_mem_handed _ _)
    obtain ⟨rfl, real, different⟩ := closed_mem_reset calls
    refine ⟨real, i, by simp [Holds, present], ?_⟩
    intro j held
    exact holds_of_put (by simpa [UniqueFd.reset] using different.symm) held
  | release present =>
    rw [← List.append_cancel_left appended] at closed
    split at closed <;> simp at closed
  | @destroy i this present =>
    rw [← List.append_cancel_left appended] at closed
    obtain ⟨rfl, real, _⟩ := closed_mem_reset closed
    refine ⟨real, i, by simp [Holds, present], ?_⟩
    intro j held
    exact holds_of_put (by simp) held

/-- What holds of the descriptors in a state. -/
structure OwnedOnce (s : FdState) : Prop where
  unique : ∀ i j fd, 0 ≤ fd → s.Holds i fd → s.Holds j fd → i = j
  /-- After the operation that closes it, nobody holds a descriptor. -/
  given_up : ∀ op s' events fd, s.next op = some s' → s'.log = s.log ++ events →
    .closed fd ∈ events → ∀ i, ¬s'.Holds i fd
  /-- Each time a descriptor was handed in has one end. -/
  held : ∀ i fd, 0 ≤ fd → s.Holds i fd →
    s.log.count (.closed fd) + s.log.count (.released fd) + 1 = s.log.count (.acquired fd)
  not_held : ∀ fd, 0 ≤ fd → (∀ i, ¬s.Holds i fd) →
    s.log.count (.closed fd) + s.log.count (.released fd) = s.log.count (.acquired fd)
  closed_le_one : ∀ fd, Ledger.NotReacquired fd s.log → s.log.count (.closed fd) ≤ 1
  closed_eq_one : ∀ fd, 0 ≤ fd → Ledger.NotReacquired fd s.log → .acquired fd ∈ s.log →
    .released fd ∉ s.log → (∀ i, ¬s.Holds i fd) → s.log.count (.closed fd) = 1

/-- Descriptors are owned once and closed once. -/
theorem fds_owned_once {s : FdState} (reachable : machine.ReachableBy HandsIn s) : OwnedOnce s := by
  obtain ⟨l, runs, tracks⟩ := tracks_of_reachable reachable
  have accounted := Ledger.accounted_of_reachable runs
  rw [Ledger.Accounted, ← tracks.log] at accounted
  have nobody : ∀ fd, 0 ≤ fd → (∀ i, ¬s.Holds i fd) → l.owner fd = none := by
    intro fd real free
    cases owned : l.owner fd with
    | none => rfl
    | some i => exact absurd ((tracks.owner i fd real).mpr owned) (free i)
  have not_held : ∀ fd, 0 ≤ fd → (∀ i, ¬s.Holds i fd) →
      s.log.count (.closed fd) + s.log.count (.released fd) = s.log.count (.acquired fd) := by
    intro fd real free
    have counts := (accounted fd).conserved
    rw [nobody fd real free] at counts
    exact counts
  constructor
  · intro i j fd real first second
    exact tracks.unique real first second
  · intro op s' events fd taken appended closed i held
    obtain ⟨real, holder, holds, others⟩ := (next_step taken).holder_of_closed appended closed
    obtain ⟨other, before⟩ := others i held
    exact other (tracks.unique real before holds)
  · intro i fd real held
    have counts := (accounted fd).conserved
    rw [(tracks.owner i fd real).mp held] at counts
    exact counts
  · exact not_held
  · intro fd kept
    exact ((accounted fd).closed_once kept).2
  · intro fd real kept acquired unreleased free
    have once := ((accounted fd).closed_once kept).2
    have counts := not_held fd real free
    have handed := List.count_pos_iff.mpr acquired
    rw [List.count_eq_zero.mpr unreleased] at counts
    omega

/-- One wrapper, with a descriptor just handed in. -/
theorem reachable_construct (fd : Int32) :
    machine.ReachableBy HandsIn (({} : FdState).put 0 (some { fd }) (handed fd)) := by
  refine .step (a := .construct 0 fd) (.start rfl) ?_ rfl
  intro _ j held
  cases held

/-- One wrapper takes over what another one holds, and closes its own. -/
theorem fds_owned_once_assigned :
    ∃ s, machine.exec {} [.construct 0 5, .construct 1 6, .moveAssign 0 1] = some s ∧
      s.log = [.acquired 5, .acquired 6, .closed 5] ∧ OwnedOnce s := by
  have both : machine.ReachableBy HandsIn ((({} : FdState).put 0 (some { fd := 5 })
      (handed 5)).put 1 (some { fd := 6 }) (handed 6)) := by
    refine .step (a := .construct 1 6) (reachable_construct 5) ?_ rfl
    intro _ j held
    rw [holds_put] at held
    rcases held with ⟨_, other⟩ | ⟨_, none⟩
    · exact absurd (Option.some.inj other) (by decide)
    · cases none
  exact ⟨_, rfl, rfl, fds_owned_once (.step (a := .moveAssign 0 1) both trivial rfl)⟩

/-- A number that was closed is handed in once more, and closed once more. -/
theorem closed_twice :
    ∃ s, machine.exec {} [.construct 0 5, .destroy 0, .construct 1 5, .destroy 1] = some s ∧
      machine.ReachableBy HandsIn s ∧ s.log.count (.closed 5) = 2 := by
  have closed : machine.ReachableBy HandsIn
      ((({} : FdState).put 0 (some { fd := 5 }) (handed 5)).put 0 none [.closed 5]) :=
    .step (a := .destroy 0) (reachable_construct 5) trivial rfl
  have again : machine.ReachableBy HandsIn
      (((({} : FdState).put 0 (some { fd := 5 }) (handed 5)).put 0 none [.closed 5]).put 1
        (some { fd := 5 }) (handed 5)) := by
    refine .step (a := .construct 1 5) closed ?_ rfl
    intro _ j held
    rw [holds_put, holds_put] at held
    rcases held with ⟨_, none⟩ | ⟨other, ⟨same, _⟩ | ⟨_, none⟩⟩
    · cases none
    · exact absurd same other
    · cases none
  exact ⟨_, rfl, .step (a := .destroy 1) again trivial rfl, rfl⟩

end FdState

end Fex
