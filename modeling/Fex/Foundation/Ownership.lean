import Mathlib.Algebra.Order.BigOperators.Group.Finset
import Mathlib.Data.Fintype.Basic
import Mathlib.Data.Set.Insert
import Fex.Foundation.Interleaving

/-!
# Threads that own resources

The books of a pool of threads, and why they stay right:

- `Registry`: the resources that exist are in the slots of a table or in somebody's hands, each in
  one place.
- `Shared`: an object is counted for each slot and each hand that refers to it, and exists for as
  long as there is one.
- `Handles`: numbers from a counter, on some of which there are leases.
- `Discipline`: what a thread may do with what it holds, and what it holds afterwards. A program
  that `Obeys` it has been checked once, for all answers.

## Main result

`Pool.disciplined`: what the permitted operations keep holds however threads that obey are
interleaved.
-/
namespace Fex.Foundation

/-! ### One place for each resource -/

structure Registry {R κ ι : Type} (live : R → Prop) (table : κ → Option R) (hands : ι → Set R) :
    Prop where
  claimed : ∀ r, live r ↔ (∃ x, table x = some r) ∨ ∃ i, r ∈ hands i
  slots : ∀ x y r, table x = some r → table y = some r → x = y
  holders : ∀ i j r, r ∈ hands i → r ∈ hands j → i = j
  apart : ∀ x i r, table x = some r → r ∉ hands i

section Updates

variable {R κ ι : Type} [DecidableEq κ] [DecidableEq ι]

theorem mem_update_insert (hands : ι → Set R) (i j : ι) (r q : R) :
    q ∈ Function.update hands i (insert r (hands i)) j ↔ (j = i ∧ q = r) ∨ q ∈ hands j := by
  by_cases same : j = i
  · subst same
    simp
  · simp [same]

theorem mem_update_sdiff (hands : ι → Set R) (i j : ι) (r q : R) :
    q ∈ Function.update hands i (hands i \ {r}) j ↔ q ∈ hands j ∧ ¬(j = i ∧ q = r) := by
  by_cases same : j = i
  · subst same
    simp
  · simp [same]

theorem update_some_iff (table : κ → Option R) (x y : κ) (r q : R) :
    Function.update table x (some r) y = some q ↔
      (y = x ∧ q = r) ∨ (y ≠ x ∧ table y = some q) := by
  by_cases same : y = x
  · subst same
    simp [eq_comm]
  · simp [same]

theorem update_none_iff (table : κ → Option R) (x y : κ) (q : R) :
    Function.update table x none y = some q ↔ y ≠ x ∧ table y = some q := by
  by_cases same : y = x
  · subst same
    simp
  · simp [same]

theorem update_some_ne_none (table : κ → Option R) (x y : κ) (r : R) :
    Function.update table x (some r) y ≠ none ↔ y = x ∨ table y ≠ none := by
  by_cases same : y = x <;> simp [same]

theorem update_none_ne_none (table : κ → Option R) (x y : κ) :
    Function.update table x none y ≠ none ↔ table y ≠ none ∧ y ≠ x := by
  by_cases same : y = x <;> simp [same]

/-- What an update leaves of each value is left as a whole. -/
theorem update_field {H F : Type} (f : H → F) {held : ι → H} {i : ι} {h : H}
    (same : f h = f (held i)) :
    (fun j => f (Function.update held i h j)) = fun j => f (held j) := by
  funext j
  by_cases here : j = i
  · subst here
    simpa using same
  · simp [here]

theorem field_update {H F : Type} (f : H → F) (held : ι → H) (i : ι) (h : H) :
    (fun j => f (Function.update held i h j)) =
      Function.update (fun j => f (held j)) i (f h) :=
  Function.comp_update f held i h

end Updates

namespace Registry

variable {R κ ι : Type} {live live' : R → Prop} {table : κ → Option R} {hands : ι → Set R}
  {r : R} {i : ι} {x : κ}

theorem congr (registry : Registry live table hands) (kept : ∀ q, live' q ↔ live q) :
    Registry live' table hands :=
  { registry with claimed := fun q => (kept q).trans (registry.claimed q) }

theorem live_of_slot (registry : Registry live table hands) (here : table x = some r) : live r :=
  (registry.claimed r).mpr (.inl ⟨x, here⟩)

theorem live_of_hand (registry : Registry live table hands) (here : r ∈ hands i) : live r :=
  (registry.claimed r).mpr (.inr ⟨i, here⟩)

variable [DecidableEq κ] [DecidableEq ι]

omit [DecidableEq κ] in
/-- Somebody gets a new resource. -/
theorem acquire (registry : Registry live table hands) (fresh : ¬live r)
    (more : ∀ q, live' q ↔ q = r ∨ live q) (i : ι) :
    Registry live' table (Function.update hands i (insert r (hands i))) := by
  obtain ⟨claimed, slots, holders, apart⟩ := registry
  obtain ⟨unstored, unheld⟩ := not_or.mp (mt (claimed r).mpr fresh)
  refine ⟨fun q => ?_, slots, fun j j' q => ?_, fun y j q => ?_⟩ <;>
    simp only [more, claimed, mem_update_insert]
  · grind
  · grind
  · grind

/-- What somebody has goes into an empty slot. -/
theorem store (registry : Registry live table hands) (held : r ∈ hands i) (free : table x = none) :
    Registry live (Function.update table x (some r)) (Function.update hands i (hands i \ {r})) := by
  obtain ⟨claimed, slots, holders, apart⟩ := registry
  refine ⟨fun q => ?_, fun y y' q => ?_, fun j j' q => ?_, fun y j q => ?_⟩ <;>
    simp only [claimed, update_some_iff, mem_update_sdiff]
  · grind
  · grind
  · grind
  · grind

omit [DecidableEq κ] in
/-- What somebody has ceases to exist. -/
theorem discard (registry : Registry live table hands) (held : r ∈ hands i)
    (fewer : ∀ q, live' q ↔ live q ∧ q ≠ r) :
    Registry live' table (Function.update hands i (hands i \ {r})) := by
  obtain ⟨claimed, slots, holders, apart⟩ := registry
  refine ⟨fun q => ?_, slots, fun j j' q => ?_, fun y j q => ?_⟩ <;>
    simp only [fewer, claimed, mem_update_sdiff]
  · grind
  · grind
  · grind

omit [DecidableEq ι] in
/-- What a slot has ceases to exist. -/
theorem clear (registry : Registry live table hands) (held : table x = some r)
    (fewer : ∀ q, live' q ↔ live q ∧ q ≠ r) :
    Registry live' (Function.update table x none) hands := by
  obtain ⟨claimed, slots, holders, apart⟩ := registry
  refine ⟨fun q => ?_, fun y y' q => ?_, holders, fun y j q => ?_⟩ <;>
    simp only [fewer, claimed, update_none_iff]
  · grind
  · grind
  · grind

end Registry

/-! ### Counted references -/

/-- A sum over all indices after one value has changed. -/
theorem sum_update {ι H : Type} [Fintype ι] [DecidableEq ι] (count : H → Nat) (held : ι → H)
    (i : ι) (h : H) :
    ∑ j, count (Function.update held i h j) + count (held i) =
      ∑ j, count (held j) + count h := by
  rw [← Finset.add_sum_erase _ _ (Finset.mem_univ i),
    ← Finset.add_sum_erase _ (fun j => count (held j)) (Finset.mem_univ i),
    Function.update_self]
  have others : ∑ j ∈ Finset.univ.erase i, count (Function.update held i h j) =
      ∑ j ∈ Finset.univ.erase i, count (held j) := by
    refine Finset.sum_congr rfl fun j member => ?_
    rw [Function.update_of_ne (Finset.ne_of_mem_erase member)]
  omega

section Shared

variable {R κ ι : Type} [DecidableEq R] [Fintype κ] [Fintype ι]

/-- The slots and the hands that refer to an object. -/
def sharers (table : κ → Option R) (hands : ι → List R) (r : R) : Nat :=
  ∑ x, (table x).toList.count r + ∑ i, (hands i).count r

/-- An object is counted for those who refer to it, and exists as long as somebody does. -/
def Shared (count : R → Option Nat) (table : κ → Option R) (hands : ι → List R) : Prop :=
  ∀ r, count r = if sharers table hands r = 0 then none else some (sharers table hands r)

namespace Shared

variable {count : R → Option Nat} {table table' : κ → Option R} {hands hands' : ι → List R}
  {r : R} {c : Nat} {x : κ} {i : ι}

/-- To begin with there is nothing. -/
theorem empty : Shared (fun _ : R => none) (fun _ : κ => none) (fun _ : ι => []) := by
  intro r
  simp [sharers]

theorem sharers_eq (shared : Shared count table hands) (alive : count r = some c) :
    sharers table hands r = c ∧ 0 < c := by
  have is := shared r
  rw [alive] at is
  split at is
  · cases is
  · cases is
    exact ⟨rfl, by omega⟩

theorem alive_of_pos (shared : Shared count table hands) (some : 0 < sharers table hands r) :
    ∃ c, count r = .some c :=
  ⟨_, (shared r).trans (if_neg (by omega))⟩

theorem alive_of_slot (shared : Shared count table hands) (here : table x = some r) :
    ∃ c, count r = some c := by
  refine shared.alive_of_pos ?_
  have one : (table x).toList.count r ≤ ∑ y, (table y).toList.count r :=
    Finset.single_le_sum (f := fun y => (table y).toList.count r) (fun _ _ => Nat.zero_le _)
      (Finset.mem_univ x)
  simp only [here, Option.toList_some, List.count_singleton_self] at one
  unfold sharers
  omega

theorem alive_of_hand (shared : Shared count table hands) (here : r ∈ hands i) :
    ∃ c, count r = some c := by
  refine shared.alive_of_pos ?_
  have one : (hands i).count r ≤ ∑ j, (hands j).count r :=
    Finset.single_le_sum (f := fun j => (hands j).count r) (fun _ _ => Nat.zero_le _)
      (Finset.mem_univ i)
  have member := List.count_pos_iff.mpr here
  unfold sharers
  omega

/-- What nobody has in hand is in a slot. -/
theorem slot_of_alive (shared : Shared count table hands) (alive : count r = some c)
    (unheld : ∀ i, r ∉ hands i) : ∃ x, table x = some r := by
  obtain ⟨now, positive⟩ := shared.sharers_eq alive
  have none : ∑ i, (hands i).count r = 0 :=
    Finset.sum_eq_zero fun i _ => List.count_eq_zero.mpr (unheld i)
  have some : ∑ x, (table x).toList.count r ≠ 0 := by
    unfold sharers at now
    omega
  obtain ⟨x, -, counted⟩ := Finset.exists_ne_zero_of_sum_ne_zero some
  have member := List.count_pos_iff.mp (Nat.pos_of_ne_zero counted)
  exact ⟨x, by simpa using member⟩

/-- The references to one object change in number, and its count with them. -/
theorem adjust (shared : Shared count table hands)
    (others : ∀ q, q ≠ r → sharers table' hands' q = sharers table hands q)
    (now : sharers table' hands' r = c) :
    Shared (Function.update count r (if c = 0 then none else some c)) table' hands' := by
  intro q
  by_cases same : q = r
  · subst same
    simp [now]
  · rw [Function.update_of_ne same, shared q, others q same]

/-- The count after a reference is gone. -/
theorem lessen (shared : Shared count table hands) (alive : count r = some c)
    (less : ∀ q, sharers table' hands' q + [r].count q = sharers table hands q) :
    Shared (Function.update count r (if c ≤ 1 then none else some (c - 1))) table' hands' := by
  obtain ⟨now, positive⟩ := shared.sharers_eq alive
  have last :
      (if c ≤ 1 then none else some (c - 1)) = if c - 1 = 0 then none else some (c - 1) := by
    simp only [Nat.sub_eq_zero_iff_le]
  rw [last]
  refine shared.adjust (fun q other => ?_) ?_
  · have := less q
    rw [List.count_singleton, if_neg (by simpa using other.symm)] at this
    exact this
  · have := less r
    rw [List.count_singleton_self] at this
    omega

variable [DecidableEq κ] [DecidableEq ι]

omit [DecidableEq κ] in
theorem retain (shared : Shared count table hands) (alive : count r = some c) (i : ι) :
    Shared (Function.update count r (some (c + 1))) table
      (Function.update hands i (r :: hands i)) := by
  have change (q : R) := sum_update (fun l : List R => l.count q) hands i (r :: hands i)
  have now := (shared.sharers_eq alive).1
  refine (shared.adjust (c := c + 1) (fun q other => ?_) ?_)
  · have := change q
    rw [List.count_cons_of_ne other.symm] at this
    unfold sharers
    omega
  · have := change r
    rw [List.count_cons_self] at this
    unfold sharers at now ⊢
    omega

omit [DecidableEq κ] in
theorem release (shared : Shared count table hands) (alive : count r = some c) {rest : List R}
    (held : (hands i).Perm (r :: rest)) :
    Shared (Function.update count r (if c ≤ 1 then none else some (c - 1))) table
      (Function.update hands i rest) := by
  refine shared.lessen alive fun q => ?_
  have change := sum_update (fun l : List R => l.count q) hands i rest
  have split : (hands i).count q = rest.count q + [r].count q := by
    rw [held.count_eq, ← List.singleton_append, List.count_append, Nat.add_comm]
  unfold sharers
  omega

omit [DecidableEq ι] in
theorem create (shared : Shared count table hands) (new : count r = none) (free : table x = none) :
    Shared (Function.update count r (some 1)) (Function.update table x (some r)) hands := by
  have change (q : R) := sum_update (fun v : Option R => v.toList.count q) table x (some r)
  have now : sharers table hands r = 0 := by
    have is := shared r
    rw [new] at is
    by_contra some
    rw [if_neg some] at is
    cases is
  refine (shared.adjust (c := 1) (fun q other => ?_) ?_)
  · have := change q
    rw [free, Option.toList_none, Option.toList_some, List.count_nil, List.count_singleton,
      if_neg (by simpa using other.symm)] at this
    unfold sharers
    omega
  · have := change r
    rw [free, Option.toList_none, Option.toList_some, List.count_nil,
      List.count_singleton_self] at this
    unfold sharers at now ⊢
    omega

omit [DecidableEq ι] in
theorem clear (shared : Shared count table hands) (alive : count r = some c)
    (held : table x = some r) :
    Shared (Function.update count r (if c ≤ 1 then none else some (c - 1)))
      (Function.update table x none) hands := by
  refine shared.lessen alive fun q => ?_
  have change := sum_update (fun v : Option R => v.toList.count q) table x none
  rw [held, Option.toList_none, Option.toList_some, List.count_nil] at change
  unfold sharers
  omega

end Shared

end Shared

/-! ### Handles from a counter -/

/-- Handles have been given out up to `last`, and what is leased is still there. -/
structure Handles {V ι : Type} (table : UInt64 → Option V) (last : UInt64)
    (leases : ι → Option (UInt64 × Option V)) : Prop where
  given : ∀ fh v, table fh = some v → fh.toNat ≤ last.toNat
  leased : ∀ i fh v, leases i = some (fh, v) → fh.toNat ≤ last.toNat ∧ table fh = v

namespace Handles

variable {V ι : Type} {table : UInt64 → Option V} {last fh : UInt64}
  {leases : ι → Option (UInt64 × Option V)}

theorem toNat_next (room : last.toNat + 1 < 2 ^ 64) : (last + 1).toNat = last.toNat + 1 := by
  rw [UInt64.toNat_add]
  exact Nat.mod_eq_of_lt room

theorem free (handles : Handles table last leases) (room : last.toNat + 1 < 2 ^ 64) :
    table (last + 1) = none := by
  by_contra some
  obtain ⟨v, is⟩ := Option.ne_none_iff_exists'.mp some
  have := handles.given _ v is
  rw [toNat_next room] at this
  omega

theorem add (handles : Handles table last leases) (room : last.toNat + 1 < 2 ^ 64) (v : V) :
    Handles (Function.update table (last + 1) (some v)) (last + 1) leases := by
  have next := toNat_next room
  constructor
  · intro fh w is
    rcases (update_some_iff ..).mp is with ⟨rfl, -⟩ | ⟨-, old⟩
    · exact Nat.le_refl _
    · have := handles.given fh w old
      omega
  · intro i fh w is
    obtain ⟨old, here⟩ := handles.leased i fh w is
    refine ⟨by omega, ?_⟩
    rw [Function.update_of_ne (fun same => by rw [same] at old; omega)]
    exact here

theorem remove (handles : Handles table last leases) (unleased : ∀ i v, leases i ≠ some (fh, v)) :
    Handles (Function.update table fh none) last leases := by
  constructor
  · intro fh' v is
    exact handles.given fh' v ((update_none_iff ..).mp is).2
  · intro i fh' v is
    obtain ⟨old, here⟩ := handles.leased i fh' v is
    refine ⟨old, ?_⟩
    rw [Function.update_of_ne (fun same : fh' = fh => unleased i v (same ▸ is))]
    exact here

variable [DecidableEq ι]

theorem relet (handles : Handles table last leases) (i : ι) {lease : Option (UInt64 × Option V)}
    (new : ∀ fh v, lease = some (fh, v) → fh.toNat ≤ last.toNat ∧ table fh = v) :
    Handles table last (Function.update leases i lease) := by
  refine ⟨handles.given, fun j fh v is => ?_⟩
  by_cases same : j = i
  · subst same
    exact new fh v (by simpa using is)
  · exact handles.leased j fh v (by simpa [same] using is)

end Handles

/-! ### What a thread may do -/

/-- What a thread may do with its holdings, what it knows of the answer, and what it holds
then. -/
structure Discipline (Op : Type) (Answer : Op → Type) (H : Type) where
  may : H → Op → Prop
  rely : H → (op : Op) → Answer op → Prop
  after : H → (op : Op) → Answer op → H

namespace Program

variable {Op : Type} {Answer : Op → Type} {α β H : Type} (D : Discipline Op Answer H)

/-- Everything the program does is permitted, and it ends with holdings that satisfy `post`. -/
def Obeys (post : α → H → Prop) : Program Op Answer α → H → Prop
  | done value, h => post value h
  | request op next, h => D.may h op ∧ ∀ answer, D.rely h op answer →
      (next answer).Obeys post (D.after h op answer)

/-- It ends with what it began with. -/
abbrev Keeps (h : H) (p : Program Op Answer α) : Prop := p.Obeys D (fun _ h' => h' = h) h

variable {D} {post post' : α → H → Prop} {h : H}

theorem obeys_bind {post : β → H → Prop} (p : Program Op Answer α)
    (f : α → Program Op Answer β) :
    (p >>= f).Obeys D post h ↔ p.Obeys D (fun a h' => (f a).Obeys D post h') h := by
  induction p generalizing h with
  | done value => exact Iff.rfl
  | request op next ih =>
    exact and_congr_right fun _ => forall_congr' fun answer => imp_congr_right fun _ => ih answer

theorem Obeys.mono {p : Program Op Answer α} (obeys : p.Obeys D post h)
    (weaker : ∀ a h, post a h → post' a h) : p.Obeys D post' h := by
  induction p generalizing h with
  | done value => exact weaker value h obeys
  | request op next ih => exact ⟨obeys.1, fun answer relied => ih answer (obeys.2 answer relied)⟩

theorem keeps_pure (value : α) : Keeps D h (pure value : Program Op Answer α) := rfl

theorem Keeps.bind {p : Program Op Answer α} {f : α → Program Op Answer β} (first : Keeps D h p)
    (later : ∀ a, Keeps D h (f a)) : Keeps D h (p >>= f) := by
  rw [Keeps, obeys_bind]
  refine first.mono ?_
  rintro a _ rfl
  exact later a

end Program

/-! ### Threads that obey -/

namespace Pool

variable {ι Op : Type} {Answer : Op → Type} {α P S J : Type} [DecidableEq ι]

/-- The job a thread was called for and has not returned from. -/
def current (history : List (Occurrence ι J (α × P))) (i : ι) : Option J :=
  history.foldl (fun job e => match e with
    | .called j job' => if j = i then some job' else job
    | .returned j _ => if j = i then none else job) none

theorem current_called (history : List (Occurrence ι J (α × P))) (i : ι) (job : J) :
    current (history ++ [.called i job]) = Function.update (current history) i (some job) := by
  funext j
  by_cases same : j = i
  · subst same
    simp [current]
  · simp [current, same, Ne.symm same]

theorem current_returned (history : List (Occurrence ι J (α × P))) (i : ι) (result : α × P) :
    current (history ++ [.returned i result]) = Function.update (current history) i none := by
  funext j
  by_cases same : j = i
  · subst same
    simp [current]
  · simp [current, same, Ne.symm same]

variable {H : Type} (D : Discipline Op Answer H) (post : α → H → Prop) (job : H → Option J)
  (idle : H)

/-- What `held` and `memory` say of a thread is what its program has been checked with. -/
structure Disciplined (s : Pool ι Op Answer α P S J) (held : ι → H) (memory : ι → P) : Prop where
  jobs : ∀ i, job (held i) = current s.history i
  absent : ∀ i, s.threads i = none → held i = idle
  obeys : ∀ i p m, s.threads i = some (p, m) → p.Obeys D post (held i) ∧ memory i = m

variable {D post job idle}

/-- One thread moves on, and the others are as they were. -/
theorem Disciplined.update {s : Pool ι Op Answer α P S J} {held : ι → H} {memory : ι → P}
    (disciplined : Disciplined D post job idle s held memory) (i : ι)
    {t : Option (Program Op Answer α × P)} {h : H} {m : P} {shared : S}
    {history : List (Occurrence ι J (α × P))}
    (jobs : current history = Function.update (current s.history) i (job h))
    (absent : t = none → h = idle)
    (obeys : ∀ p m', t = some (p, m') → p.Obeys D post h ∧ m = m') :
    Disciplined D post job idle { threads := Function.update s.threads i t, shared, history }
      (Function.update held i h) (Function.update memory i m) := by
  constructor
  · intro j
    rw [jobs]
    by_cases same : j = i
    · subst same
      simp
    · simpa [same] using disciplined.jobs j
  · intro j none
    by_cases same : j = i
    · subst same
      simpa using absent (by simpa using none)
    · simpa [same] using disciplined.absent j (by simpa [same] using none)
  · intro j p m some
    by_cases same : j = i
    · subst same
      simpa using obeys p m (by simpa using some)
    · simpa [same] using disciplined.obeys j p m (by simpa [same] using some)

variable {env : (op : Op) → P × S → Answer op × (P × S)} {code : J → Program Op Answer α × P}
  {allowed : Pool ι Op Answer α P S J → PoolAction ι J → Prop} {start : S}
  {inv : S → (ι → H) → (ι → P) → Prop}

/-- What permitted operations keep holds among threads that obey, whatever their order. -/
theorem disciplined (idle_job : job idle = none)
    (keeps_job : ∀ h op answer, job (D.after h op answer) = job h) (blank : P)
    (initial : inv start (fun _ => idle) fun _ => blank)
    (calls : ∀ (s : Pool ι Op Answer α P S J) held memory i j, allowed s (.call i j) →
      inv s.shared held memory → (∀ k, job (held k) = current s.history k) → held i = idle →
      ∃ h, job h = some j ∧
        inv s.shared (Function.update held i h) (Function.update memory i (code j).2) ∧
        (code j).1.Obeys D post h)
    (steps : ∀ (s : Pool ι Op Answer α P S J) held memory i op, allowed s (.step i) →
      inv s.shared held memory → D.may (held i) op →
      D.rely (held i) op (env op (memory i, s.shared)).1 ∧
        inv (env op (memory i, s.shared)).2.2
          (Function.update held i (D.after (held i) op (env op (memory i, s.shared)).1))
          (Function.update memory i (env op (memory i, s.shared)).2.1))
    (finishes : ∀ s held memory i value, inv s held memory → post value (held i) →
      inv s (Function.update held i idle) memory)
    {s : Pool ι Op Answer α P S J} (reachable : (machine env code id start).ReachableBy allowed s) :
    ∃ held memory, inv s.shared held memory ∧ Disciplined D post job idle s held memory := by
  induction reachable with
  | start begins =>
    cases begins
    exact ⟨fun _ => idle, fun _ => blank, initial, fun _ => idle_job, fun _ _ => rfl, nofun⟩
  | @step s _ _ _ permitted taken ih =>
    obtain ⟨held, memory, holds, disciplined⟩ := ih
    cases next_iff.mp taken with
    | call i j free =>
      obtain ⟨h, called, kept, obeys⟩ :=
        calls s held memory i j permitted holds disciplined.jobs (disciplined.absent i free)
      refine ⟨_, _, kept, disciplined.update i (by rw [current_called, called]) nofun ?_⟩
      rintro p m is
      simp only [id, Option.some.injEq] at is
      rw [is] at obeys ⊢
      exact ⟨obeys, rfl⟩
    | step i op next m runs =>
      obtain ⟨⟨may, rest⟩, rfl⟩ := disciplined.obeys i _ m runs
      obtain ⟨relied, kept⟩ := steps s held memory i op permitted holds may
      refine ⟨_, _, kept, disciplined.update i ?_ nofun ?_⟩
      · rw [keeps_job, disciplined.jobs i, Function.update_eq_self]
      · rintro p m' is
        cases is
        exact ⟨rest _ relied, rfl⟩
    | finish i value m ends =>
      obtain ⟨done, -⟩ := disciplined.obeys i _ m ends
      refine ⟨_, _, finishes s.shared held memory i value holds done, ?_⟩
      rw [← Function.update_eq_self i memory]
      exact disciplined.update i (by rw [current_returned, idle_job]) (fun _ => rfl) nofun

end Pool

end Fex.Foundation
