import Mathlib.Logic.Function.Basic
import Fex.Foundation.Program
import Fex.Foundation.Transition

/-!
# Programs side by side

Several threads run programs, each over memory of its own, and share one state. A `Pool` is all
of them together; its history says which jobs were called and what they returned, so that one
job comes before another in the history just when it returned before the other was called.

## Main results

- `reachable_settled`: if every operation works on the thread's own memory or on the shared
  state, it is enough to look at the runs in which a thread is interrupted only right before an
  operation on the shared state.
- `linearizable`: a job that makes at most one of these takes effect at once, at one point
  between its call and its return.

## Proof strategy

What a thread does on its own memory nobody else can tell, so it might as well do it right away
(`settle`). A pool of settled threads follows the pool of the same threads step by step, and
stands still where a thread works for itself. A job with one shared operation is settled, takes
one step and is done; that step is the one at which an atomic server serves it.
-/
namespace Fex.Foundation

open Program

/-! ### Pools -/

inductive Occurrence (ι J R : Type) where
  | called (i : ι) (job : J)
  | returned (i : ι) (result : R)

def Occurrence.map {ι J R R' : Type} (f : R → R') : Occurrence ι J R → Occurrence ι J R'
  | called i job => .called i job
  | returned i result => .returned i (f result)

inductive PoolAction (ι J : Type) where
  | call (i : ι) (job : J)
  | step (i : ι)
  | finish (i : ι)

structure Pool (ι : Type) (Op : Type) (Answer : Op → Type) (α P S J : Type) where
  threads : ι → Option (Program Op Answer α × P) := fun _ => none
  shared : S
  history : List (Occurrence ι J (α × P)) := []

namespace Pool

variable {ι Op : Type} {Answer : Op → Type} {α P S J : Type} [DecidableEq ι]
  (env : (op : Op) → P × S → Answer op × (P × S)) (code : J → Program Op Answer α × P)
  (rest : Program Op Answer α × P → Program Op Answer α × P)

/-- What an action does; a thread is brought to `rest` before others see it. -/
def next (s : Pool ι Op Answer α P S J) : PoolAction ι J → Option (Pool ι Op Answer α P S J)
  | .call i job =>
    match s.threads i with
    | none => some { s with
        threads := Function.update s.threads i (some (rest (code job)))
        history := s.history ++ [.called i job] }
    | some _ => none
  | .step i =>
    match s.threads i with
    | some (.request op next, m) => some { s with
        threads := Function.update s.threads i
          (some (rest (next (env op (m, s.shared)).1, (env op (m, s.shared)).2.1)))
        shared := (env op (m, s.shared)).2.2 }
    | _ => none
  | .finish i =>
    match s.threads i with
    | some (.done value, m) => some { s with
        threads := Function.update s.threads i none
        history := s.history ++ [.returned i (value, m)] }
    | _ => none

/-- The runs of a pool that starts idle. -/
def machine (start : S) : Machine (Pool ι Op Answer α P S J) (PoolAction ι J) where
  initial s := s = { shared := start }
  next := next env code rest

/-- The actions of a pool, told apart by the thread they find. -/
inductive Step (s : Pool ι Op Answer α P S J) :
    PoolAction ι J → Pool ι Op Answer α P S J → Prop where
  | call (i : ι) (job : J) (idle : s.threads i = none) :
      Step s (.call i job) { s with
        threads := Function.update s.threads i (some (rest (code job)))
        history := s.history ++ [.called i job] }
  | step (i : ι) (op : Op) (next : Answer op → Program Op Answer α) (m : P)
      (runs : s.threads i = some (.request op next, m)) :
      Step s (.step i) { s with
        threads := Function.update s.threads i
          (some (rest (next (env op (m, s.shared)).1, (env op (m, s.shared)).2.1)))
        shared := (env op (m, s.shared)).2.2 }
  | finish (i : ι) (value : α) (m : P) (ends : s.threads i = some (.done value, m)) :
      Step s (.finish i) { s with
        threads := Function.update s.threads i none
        history := s.history ++ [.returned i (value, m)] }

variable {env code rest}

theorem next_iff {start : S} {s s' : Pool ι Op Answer α P S J} {a : PoolAction ι J} :
    (machine env code rest start).next s a = some s' ↔ Step env code rest s a s' := by
  show next env code rest s a = some s' ↔ _
  constructor
  · intro taken
    cases a with
    | call i job =>
      cases here : s.threads i with
      | none =>
        simp only [next, here, Option.some.injEq] at taken
        subst taken
        exact .call i job here
      | some t => simp [next, here] at taken
    | step i =>
      rcases here : s.threads i with _ | ⟨_ | ⟨op, rest⟩, m⟩
      · simp [next, here] at taken
      · simp [next, here] at taken
      · simp only [next, here, Option.some.injEq] at taken
        subst taken
        exact .step i op rest m here
    | finish i =>
      rcases here : s.threads i with _ | ⟨value | ⟨op, rest⟩, m⟩
      · simp [next, here] at taken
      · simp only [next, here, Option.some.injEq] at taken
        subst taken
        exact .finish i value m here
      · simp [next, here] at taken
  · intro step
    cases step with
    | call i job idle => simp [next, idle]
    | step i op next m runs => simp [Pool.next, runs]
    | finish i value m ends => simp [next, ends]

end Pool

/-! ### Leaving parts of the shared state out -/

namespace Pool

variable {ι Op : Type} {Answer : Op → Type} {α P S S' J : Type}

/-- The pool as seen by someone who sees only a part of the shared state. -/
def project (view : S → S') (s : Pool ι Op Answer α P S J) : Pool ι Op Answer α P S' J where
  threads := s.threads
  shared := view s.shared
  history := s.history

variable [DecidableEq ι] {env : (op : Op) → P × S → Answer op × (P × S)}
  {env' : (op : Op) → P × S' → Answer op × (P × S')} {code : J → Program Op Answer α × P}
  {rest : Program Op Answer α × P → Program Op Answer α × P} {view : S → S'}
  {allowed : PoolAction ι J → Prop}

/-- If the operations do not depend on what is left out, the pool runs without it. -/
theorem reachable_project
    (agree : ∀ op m s, env' op (m, view s) =
      ((env op (m, s)).1, ((env op (m, s)).2.1, view (env op (m, s)).2.2)))
    {start : S} {s : Pool ι Op Answer α P S J}
    (reachable : (machine env code rest start).ReachableBy (fun _ => allowed) s) :
    (machine env' code rest (view start)).ReachableBy (fun _ => allowed) (s.project view) := by
  induction reachable with
  | start begins =>
    cases begins
    exact .start rfl
  | step _ permitted taken ih =>
    refine .step ih permitted (next_iff.mpr ?_)
    cases next_iff.mp taken with
    | call i job idle => exact .call i job idle
    | step i op next m runs =>
      simpa only [project, agree] using
        @Step.step ι Op Answer α P S' J _ env' code rest (project view _) i op next m runs
    | finish i value m ends => exact .finish i value m ends

end Pool

/-! ### Own memory and shared state -/

/-- Where an operation is answered: in the memory of its thread, or in the shared state. -/
abbrev Access (Op : Type) (Answer : Op → Type) (P S : Type) :=
  (op : Op) → (P → Answer op × P) ⊕ (S → Answer op × S)

namespace Access

variable {Op : Type} {Answer : Op → Type} {α P S : Type} (access : Access Op Answer P S)

def env (op : Op) (w : P × S) : Answer op × (P × S) :=
  match access op with
  | .inl own => ((own w.1).1, ((own w.1).2, w.2))
  | .inr common => ((common w.2).1, (w.1, (common w.2).2))

/-- Run as far as the memory of the thread will do. -/
def settle : Program Op Answer α → P → Program Op Answer α × P
  | .done value, m => (.done value, m)
  | .request op next, m =>
    match access op with
    | .inl own => settle (next (own m).1) (own m).2
    | .inr _ => (.request op next, m)

/-- How often a program alone with the shared state turns to it. -/
def shots (p : Program Op Answer α) (m : P) (s : S) : Nat :=
  (trace access.env p (m, s)).countP fun e => (access e.1).isRight

section

variable {access} {op : Op} {next : Answer op → Program Op Answer α}

theorem settle_own {own : P → Answer op × P} (here : access op = .inl own) (m : P) :
    access.settle (.request op next) m = access.settle (next (own m).1) (own m).2 := by
  simp [settle, here]

theorem settle_common {common : S → Answer op × S} (here : access op = .inr common) (m : P) :
    access.settle (.request op next) m = (.request op next, m) := by
  simp [settle, here]

theorem env_own {own : P → Answer op × P} (here : access op = .inl own) (m : P) (s : S) :
    access.env op (m, s) = ((own m).1, ((own m).2, s)) := by
  simp [env, here]

theorem env_common {common : S → Answer op × S} (here : access op = .inr common) (m : P)
    (s : S) : access.env op (m, s) = ((common s).1, (m, (common s).2)) := by
  simp [env, here]

/-- A program stops settling only in front of the shared state. -/
theorem common_of_settle {p : Program Op Answer α} {m m' : P}
    (stops : access.settle p m = (.request op next, m')) : ∃ common, access op = .inr common := by
  induction p generalizing m with
  | done value => simp [settle] at stops
  | request op' next' ih =>
    cases here : access op' with
    | inl own => exact ih _ (by rwa [settle_own here] at stops)
    | inr common =>
      rw [settle_common here] at stops
      cases stops
      exact ⟨common, here⟩

end

theorem run_settle (p : Program Op Answer α) (m : P) (s : S) :
    run access.env (access.settle p m).1 ((access.settle p m).2, s) =
      run access.env p (m, s) := by
  induction p generalizing m with
  | done value => rfl
  | request op next ih =>
    cases here : access op with
    | inl own => rw [settle_own here, ih, run, env_own here]
    | inr common => rw [settle_common here]

theorem shots_settle (p : Program Op Answer α) (m : P) (s : S) :
    access.shots (access.settle p m).1 (access.settle p m).2 s = access.shots p m s := by
  induction p generalizing m with
  | done value => rfl
  | request op next ih =>
    cases here : access op with
    | inl own => rw [settle_own here, ih, shots, shots, trace, env_own here]; simp [here]
    | inr common => rw [settle_common here]

variable {access}

theorem shots_common {op : Op} {next : Answer op → Program Op Answer α}
    {common : S → Answer op × S} (here : access op = .inr common) (m : P) (s : S) :
    access.shots (.request op next) m s =
      access.shots (next (common s).1) m (common s).2 + 1 := by
  rw [shots, shots, trace, env_common here]
  simp [here]

/-- A program that leaves the shared state alone settles until it is done. -/
theorem settle_of_shots {p : Program Op Answer α} {m : P} {s : S}
    (alone : access.shots p m s = 0) : ∃ value m', access.settle p m = (.done value, m') := by
  rcases stops : access.settle p m with ⟨value | ⟨op, next⟩, m'⟩
  · exact ⟨value, m', rfl⟩
  · obtain ⟨common, here⟩ := common_of_settle stops
    rw [← shots_settle, stops, shots_common here] at alone
    omega

end Access

/-! ### Interrupted only in front of the shared state -/

section Settled

variable {ι Op : Type} {Answer : Op → Type} {α P S J : Type} (access : Access Op Answer P S)

def Pool.settle (s : Pool ι Op Answer α P S J) : Pool ι Op Answer α P S J :=
  { s with threads := fun i => (s.threads i).map fun t => access.settle t.1 t.2 }

variable {access}

theorem Pool.settle_update [DecidableEq ι] (s : Pool ι Op Answer α P S J) (i : ι)
    (t : Option (Program Op Answer α × P)) (shared : S)
    (history : List (Occurrence ι J (α × P))) :
    Pool.settle access { threads := Function.update s.threads i t, shared, history } =
      { threads := Function.update (s.settle access).threads i
          (t.map fun t => access.settle t.1 t.2)
        shared, history } := by
  refine congrArg (Pool.mk · shared history) (funext fun j => ?_)
  exact Function.apply_update (fun _ => Option.map fun t => access.settle t.1 t.2) _ i t j

variable [DecidableEq ι] {code : J → Program Op Answer α × P} {allowed : PoolAction ι J → Prop}

/-- Whatever threads that may be interrupted anywhere do, threads that are interrupted only in
front of the shared state do as well. -/
theorem reachable_settled {start : S} {s : Pool ι Op Answer α P S J}
    (reachable : (Pool.machine access.env code id start).ReachableBy (fun _ => allowed) s) :
    (Pool.machine access.env code (fun t => access.settle t.1 t.2) start).ReachableBy
      (fun _ => allowed) (s.settle access) := by
  induction reachable with
  | start begins =>
    cases begins
    exact .start rfl
  | @step s _ _ _ permitted taken ih =>
    cases Pool.next_iff.mp taken with
    | call i job idle =>
      refine .step ih permitted (Pool.next_iff.mpr ?_)
      rw [Pool.settle_update]
      exact .call i job (by simp [Pool.settle, idle])
    | step i op next m runs =>
      cases here : access op with
      | inl own =>
        -- The settled thread has taken this step already.
        have still : Function.update (s.settle access).threads i
            (some (access.settle (next (own m).1) (own m).2)) = (s.settle access).threads := by
          refine Function.update_eq_self_iff.mpr ?_
          simp [Pool.settle, runs, Access.settle_own here]
        rw [Pool.settle_update]
        simp only [Access.env_own here, id, Option.map_some, still]
        exact ih
      | inr common =>
        refine .step ih permitted (Pool.next_iff.mpr ?_)
        rw [Pool.settle_update]
        exact .step i op next m (by simp [Pool.settle, runs, Access.settle_common here])
    | finish i value m ends =>
      refine .step ih permitted (Pool.next_iff.mpr ?_)
      rw [Pool.settle_update]
      exact .finish i value m (by simp [Pool.settle, ends, Access.settle])

end Settled

/-! ### Jobs served at once -/

inductive Stage (J R : Type) where
  | idle
  | waiting (job : J)
  | served (result : R)

def Stage.map {J R R' : Type} (f : R → R') : Stage J R → Stage J R'
  | idle => .idle
  | waiting job => .waiting job
  | served result => .served (f result)

section Stages

variable {J R R' : Type} (f : R → R')

@[simp] theorem Stage.map_idle : (.idle : Stage J R).map f = .idle := rfl

@[simp] theorem Stage.map_waiting (job : J) : (.waiting job : Stage J R).map f = .waiting job := rfl

@[simp] theorem Stage.map_served (result : R) :
    (.served result : Stage J R).map f = .served (f result) := rfl

end Stages

inductive ServiceAction (ι J : Type) where
  | call (i : ι) (job : J)
  | serve (i : ι)
  | finish (i : ι)

/-- A server that performs each job as a whole, some time between its call and its return. -/
structure Service (ι J R S : Type) where
  stages : ι → Stage J R := fun _ => .idle
  shared : S
  history : List (Occurrence ι J R) := []

namespace Service

variable {ι J R S : Type} [DecidableEq ι] (perform : J → S → R × S)

def next (s : Service ι J R S) : ServiceAction ι J → Option (Service ι J R S)
  | .call i job =>
    match s.stages i with
    | .idle => some { s with
        stages := Function.update s.stages i (.waiting job)
        history := s.history ++ [.called i job] }
    | _ => none
  | .serve i =>
    match s.stages i with
    | .waiting job => some { s with
        stages := Function.update s.stages i (.served (perform job s.shared).1)
        shared := (perform job s.shared).2 }
    | _ => none
  | .finish i =>
    match s.stages i with
    | .served result => some { s with
        stages := Function.update s.stages i .idle
        history := s.history ++ [.returned i result] }
    | _ => none

def machine (start : S) : Machine (Service ι J R S) (ServiceAction ι J) where
  initial s := s = { shared := start }
  next := next perform

variable {perform} {start : S} {s : Service ι J R S} {i : ι}

theorem next_call (job : J) (free : s.stages i = .idle) :
    (machine perform start).next s (.call i job) = some { s with
      stages := Function.update s.stages i (.waiting job)
      history := s.history ++ [.called i job] } := by
  simp [machine, next, free]

theorem next_serve {job : J} (waits : s.stages i = .waiting job) :
    (machine perform start).next s (.serve i) = some { s with
      stages := Function.update s.stages i (.served (perform job s.shared).1)
      shared := (perform job s.shared).2 } := by
  simp [machine, next, waits]

theorem next_finish {result : R} (served : s.stages i = .served result) :
    (machine perform start).next s (.finish i) = some { s with
      stages := Function.update s.stages i .idle
      history := s.history ++ [.returned i result] } := by
  simp [machine, next, served]

/-! What a client makes of the results. -/

variable {R' : Type} (f : R → R')

def view (s : Service ι J R S) : Service ι J R' S where
  stages i := (s.stages i).map f
  shared := s.shared
  history := s.history.map (.map f)

/-- A server seen through `f` takes the steps of the server with those results. -/
theorem next_view {perform' : J → S → R' × S}
    (same : ∀ job s, perform' job s = (f (perform job s).1, (perform job s).2))
    (s : Service ι J R S) (a : ServiceAction ι J) :
    next perform' (s.view f) a = (next perform s a).map (view f) := by
  have update (i : ι) (stage : Stage J R) :
      (fun k => (Function.update s.stages i stage k).map f) =
        Function.update (fun k => (s.stages k).map f) i (stage.map f) :=
    funext fun k => Function.apply_update (fun _ => Stage.map f) s.stages i stage k
  cases a with
  | call i job | finish i | serve i =>
    cases here : s.stages i <;> simp [next, view, here, update, same, Occurrence.map]

theorem reachable_view {perform' : J → S → R' × S}
    (same : ∀ job s, perform' job s = (f (perform job s).1, (perform job s).2))
    (reachable : (machine perform start).Reachable s) :
    (machine perform' start).Reachable (s.view f) := by
  induction reachable with
  | start begins =>
    cases begins
    exact .start rfl
  | step _ _ taken ih => exact .step ih trivial ((next_view f same _ _).trans (congrArg _ taken))

end Service

section Linearizable

variable {ι Op : Type} {Answer : Op → Type} {α P S J : Type} (access : Access Op Answer P S)
  (code : J → Program Op Answer α × P)

/-- The whole of a job, alone with the shared state. -/
def atOnce (job : J) (s : S) : (α × P) × S :=
  let ran := run access.env (code job).1 ((code job).2, s)
  ((ran.1, ran.2.1), ran.2.2)

/-- Where the server is with a job whose settled thread is as it is. -/
inductive AtStage : Option (Program Op Answer α × P) → Stage J (α × P) → Prop where
  | idle : AtStage none .idle
  | waiting (job : J) (op : Op) (next : Answer op → Program Op Answer α) (m : P)
      (stops : access.settle (code job).1 (code job).2 = (.request op next, m))
      (single : ∀ s, access.shots (code job).1 (code job).2 s ≤ 1) :
      AtStage (some (.request op next, m)) (.waiting job)
  | served (value : α) (m : P) : AtStage (some (.done value, m)) (.served (value, m))

variable {access code}

theorem AtStage.of_none {stage : Stage J (α × P)} (here : AtStage access code none stage) :
    stage = .idle := by
  cases here
  rfl

theorem AtStage.of_request {op : Op} {next : Answer op → Program Op Answer α} {m : P}
    {stage : Stage J (α × P)} (here : AtStage access code (some (.request op next, m)) stage) :
    ∃ job, stage = .waiting job ∧
      access.settle (code job).1 (code job).2 = (.request op next, m) ∧
      ∀ s, access.shots (code job).1 (code job).2 s ≤ 1 := by
  cases here with
  | waiting job _ _ _ stops single => exact ⟨job, rfl, stops, single⟩

theorem AtStage.of_done {value : α} {m : P} {stage : Stage J (α × P)}
    (here : AtStage access code (some (.done value, m)) stage) :
    stage = .served (value, m) := by
  cases here
  rfl

/-- The only turn to the shared state is the whole job. -/
theorem atOnce_of_stops {job : J} {op : Op} {next : Answer op → Program Op Answer α} {m : P}
    (stops : access.settle (code job).1 (code job).2 = (.request op next, m))
    (single : ∀ s, access.shots (code job).1 (code job).2 s ≤ 1) (s : S) :
    ∃ value m', access.settle (next (access.env op (m, s)).1) (access.env op (m, s)).2.1 =
        (.done value, m') ∧
      atOnce access code job s = ((value, m'), (access.env op (m, s)).2.2) := by
  obtain ⟨common, here⟩ := Access.common_of_settle stops
  have alone : access.shots (next (common s).1) m (common s).2 = 0 := by
    have bound := single s
    rw [← Access.shots_settle, stops] at bound
    dsimp only at bound
    rw [Access.shots_common here] at bound
    omega
  obtain ⟨value, m', ends⟩ := Access.settle_of_shots alone
  have whole : run access.env (code job).1 ((code job).2, s) = (value, (m', (common s).2)) := by
    rw [← Access.run_settle, stops, run, Access.env_common here, ← Access.run_settle, ends, run]
  exact ⟨value, m', by rw [Access.env_common here, ends],
    by rw [atOnce, whole, Access.env_common here]⟩

theorem atOnce_of_done {job : J} {value : α} {m : P}
    (ends : access.settle (code job).1 (code job).2 = (.done value, m)) (s : S) :
    atOnce access code job s = ((value, m), s) := by
  rw [atOnce, ← Access.run_settle, ends, run]

variable [DecidableEq ι]

/-- The relation between all threads and all stages, after one thread moved on. -/
theorem AtStage.update {threads : ι → Option (Program Op Answer α × P)}
    {stages : ι → Stage J (α × P)} (all : ∀ i, AtStage access code (threads i) (stages i))
    (i : ι) {t : Option (Program Op Answer α × P)} {stage : Stage J (α × P)}
    (here : AtStage access code t stage) (j : ι) :
    AtStage access code (Function.update threads i t j) (Function.update stages i stage j) := by
  by_cases same : j = i
  · subst same
    simpa using here
  · simpa [Function.update_of_ne same] using all j

/-- The server that serves a job when its thread turns to the shared state. -/
structure Tracks (access : Access Op Answer P S) (code : J → Program Op Answer α × P)
    (t : Pool ι Op Answer α P S J) (served : Service ι J (α × P) S) : Prop where
  stages : ∀ i, AtStage access code (t.threads i) (served.stages i)
  shared : served.shared = t.shared
  history : served.history = t.history

theorem tracks_step {start : S} {t t' : Pool ι Op Answer α P S J} {a : PoolAction ι J}
    (step : Pool.Step access.env code (fun t => access.settle t.1 t.2) t a t')
    (single : ∀ i job, a = .call i job → ∀ s, access.shots (code job).1 (code job).2 s ≤ 1)
    {served : Service ι J (α × P) S}
    (runs : (Service.machine (atOnce access code) start).Reachable served)
    (tracks : Tracks access code t served) :
    ∃ served' : Service ι J (α × P) S,
      (Service.machine (atOnce access code) start).Reachable served' ∧
      Tracks access code t' served' := by
  cases step with
  | call i job idle =>
    have free : served.stages i = .idle := (idle ▸ tracks.stages i).of_none
    have called := runs.step trivial (Service.next_call job free)
    rcases ends : access.settle (code job).1 (code job).2 with ⟨value | ⟨op, next⟩, m⟩
    · -- A job that needs nothing of the shared state is served as soon as it is called.
      refine ⟨_, called.step trivial (Service.next_serve (Function.update_self ..)), ?_, ?_, ?_⟩
      · simp only [atOnce_of_done ends, Function.update_idem]
        exact AtStage.update tracks.stages i (.served value m)
      · simpa only [atOnce_of_done ends] using tracks.shared
      · simp only [tracks.history]
    · have waits := AtStage.waiting job op next m ends (single i job rfl)
      exact ⟨_, called, AtStage.update tracks.stages i waits, tracks.shared,
        by simp only [tracks.history]⟩
  | step i op next m here =>
    obtain ⟨job, waits, stops, single⟩ := (here ▸ tracks.stages i).of_request
    obtain ⟨value, m', ends, whole⟩ := atOnce_of_stops stops single t.shared
    refine ⟨_, runs.step trivial (Service.next_serve waits), ?_, ?_, tracks.history⟩
    · simp only [tracks.shared, ends, whole]
      exact AtStage.update tracks.stages i (.served value m')
    · simp only [tracks.shared, whole]
  | finish i value m ends =>
    have served := (ends ▸ tracks.stages i).of_done
    exact ⟨_, runs.step trivial (Service.next_finish served),
      AtStage.update tracks.stages i .idle, tracks.shared, by simp only [tracks.history]⟩

/-- If no job called turns to the shared state twice, everything seen of the threads is seen of
a server that performs one job after the other. -/
theorem linearizable {allowed : PoolAction ι J → Prop}
    (single : ∀ i job, allowed (.call i job) → ∀ s, access.shots (code job).1 (code job).2 s ≤ 1)
    {start : S} {s : Pool ι Op Answer α P S J}
    (reachable : (Pool.machine access.env code id start).ReachableBy (fun _ => allowed) s) :
    ∃ served : Service ι J (α × P) S,
      (Service.machine (atOnce access code) start).Reachable served ∧
      served.history = s.history ∧ served.shared = s.shared := by
  suffices tracked : ∃ served, (Service.machine (atOnce access code) start).Reachable served ∧
      Tracks access code (s.settle access) served by
    obtain ⟨served, runs, tracks⟩ := tracked
    exact ⟨served, runs, tracks.history, tracks.shared⟩
  have settled := reachable_settled reachable
  generalize s.settle access = t at settled
  induction settled with
  | start begins =>
    cases begins
    exact ⟨_, .start rfl, fun _ => .idle, rfl, rfl⟩
  | step _ permitted taken ih =>
    obtain ⟨served, runs, tracks⟩ := ih
    refine tracks_step (Pool.next_iff.mp taken) ?_ runs tracks
    rintro i job rfl
    exact single i job permitted

end Linearizable

end Fex.Foundation
