import Mathlib.Logic.Basic

/-!
# Programs as request trees

A program either returns a value or asks its environment for an operation and
continues with the answer. Code written once in this form is executed against a
state, yields the log of its operations, and can be specified for all answers at
once: `Ensures rely guarantee post` states what every operation satisfies as long
as the answers satisfy `rely`. Nothing here depends on which operations exist.
-/
namespace Fex.Foundation

inductive Program (Op : Type) (Answer : Op → Type) (α : Type) : Type where
  | done (value : α) : Program Op Answer α
  | request (op : Op) (next : Answer op → Program Op Answer α) : Program Op Answer α

namespace Program

variable {Op : Type} {Answer : Op → Type} {α β γ S : Type}

def bind : Program Op Answer α → (α → Program Op Answer β) → Program Op Answer β
  | done value, rest => rest value
  | request op next, rest => request op fun answer => (next answer).bind rest

instance : Monad (Program Op Answer) where
  pure := done
  bind := bind

theorem bind_done (p : Program Op Answer α) : p.bind done = p := by
  induction p with
  | done value => rfl
  | request op next ih => exact congrArg (request op) (funext ih)

theorem bind_assoc (p : Program Op Answer α) (f : α → Program Op Answer β)
    (g : β → Program Op Answer γ) : (p.bind f).bind g = p.bind fun a => (f a).bind g := by
  induction p with
  | done value => rfl
  | request op next ih => exact congrArg (request op) (funext ih)

instance : LawfulMonad (Program Op Answer) :=
  LawfulMonad.mk' _ (fun p => bind_done p) (fun _ _ => rfl) bind_assoc

/-- The program that performs one operation and returns its answer. -/
def ask (op : Op) : Program Op Answer (Answer op) := request op done

/-! ### Execution -/

/-- Execute against a state that answers every operation. -/
def run (env : (op : Op) → S → Answer op × S) : Program Op Answer α → S → α × S
  | done value, s => (value, s)
  | request op next, s => run env (next (env op s).1) (env op s).2

/-- The operations performed by an execution, with their answers, in order. -/
def trace (env : (op : Op) → S → Answer op × S) :
    Program Op Answer α → S → List ((op : Op) × Answer op)
  | done _, _ => []
  | request op next, s => ⟨op, (env op s).1⟩ :: trace env (next (env op s).1) (env op s).2

section Execution

variable (env : (op : Op) → S → Answer op × S)

@[simp] theorem run_pure (value : α) (s : S) :
    run env (pure value : Program Op Answer α) s = (value, s) := rfl

@[simp] theorem run_ask (op : Op) (s : S) : run env (ask op) s = env op s := rfl

@[simp] theorem run_bind (p : Program Op Answer α) (f : α → Program Op Answer β) (s : S) :
    run env (p >>= f) s = run env (f (run env p s).1) (run env p s).2 := by
  induction p generalizing s with
  | done value => rfl
  | request op next ih => exact ih _ _

@[simp] theorem run_map (p : Program Op Answer α) (f : α → β) (s : S) :
    run env (f <$> p) s = (f (run env p s).1, (run env p s).2) := by
  rw [← bind_pure_comp, run_bind, run_pure]

@[simp] theorem trace_pure (value : α) (s : S) :
    trace env (pure value : Program Op Answer α) s = [] := rfl

@[simp] theorem trace_ask (op : Op) (s : S) : trace env (ask op) s = [⟨op, (env op s).1⟩] := rfl

@[simp] theorem trace_bind (p : Program Op Answer α) (f : α → Program Op Answer β) (s : S) :
    trace env (p >>= f) s =
      trace env p s ++ trace env (f (run env p s).1) (run env p s).2 := by
  induction p generalizing s with
  | done value => rfl
  | request op next ih => exact congrArg (List.cons _) (ih _ _)

@[simp] theorem trace_map (p : Program Op Answer α) (f : α → β) (s : S) :
    trace env (f <$> p) s = trace env p s := by
  rw [← bind_pure_comp, trace_bind, trace_pure, List.append_nil]

/-- A program that goes on with the value it found, if it found one. -/
theorem run_option_bind_iff (p : Program Op Answer (Option α))
    (rest : Option α → Program Op Answer (Option β)) (stops : rest none = pure none) (s : S)
    (b : β) :
    (run env (p >>= rest) s).1 = some b ↔
      ∃ a, (run env p s).1 = some a ∧ (run env (rest (some a)) (run env p s).2).1 = some b := by
  rw [run_bind]
  cases found : (run env p s).1 with
  | none => simp [stops]
  | some a => simp

/-- What the environment answers from a part of the state that no operation of the
execution changes, it answers from that part as it was at the start. -/
theorem trace_answers {V : Type} (view : S → V) (answers : V → (op : Op) → Answer op → Prop)
    (honest : ∀ op s, answers (view s) op (env op s).1) (p : Program Op Answer α) (s : S)
    (kept : ∀ e ∈ trace env p s, ∀ s, view (env e.1 s).2 = view s) :
    ∀ e ∈ trace env p s, answers (view s) e.1 e.2 := by
  induction p generalizing s with
  | done value => exact fun e member => absurd member List.not_mem_nil
  | request op next ih =>
    have later := ih _ (env op s).2 fun e member => kept e (List.mem_cons_of_mem _ member)
    rw [kept ⟨op, (env op s).1⟩ List.mem_cons_self s] at later
    intro e member
    rcases List.mem_cons.mp member with rfl | tail
    · exact honest op s
    · exact later e tail

/-- Wherever they start, both programs return the same value in the same state. -/
def RunsLike (p q : Program Op Answer α) : Prop := ∀ s, run env p s = run env q s

variable {env}

theorem RunsLike.bind {p q : Program Op Answer α} {f g : α → Program Op Answer β}
    (first : RunsLike env p q) (rest : ∀ a, RunsLike env (f a) (g a)) :
    RunsLike env (p >>= f) (q >>= g) := by
  intro s
  rw [run_bind, run_bind, first s]
  exact rest _ _

theorem RunsLike.ite {c c' : Prop} [Decidable c] [Decidable c'] {p p' q q' : Program Op Answer α}
    (same : c ↔ c') (yes : RunsLike env p p') (no : ¬c' → RunsLike env q q') :
    RunsLike env (if c then p else q) (if c' then p' else q') := by
  by_cases holds : c'
  · rwa [if_pos holds, if_pos (same.mpr holds)]
  · rw [if_neg holds, if_neg (mt same.mp holds)]
    exact no holds

theorem RunsLike.map {p q : Program Op Answer α} (first : RunsLike env p q) (f : α → β) :
    RunsLike env (f <$> p) (f <$> q) := by
  intro s
  rw [run_map, run_map, first s]

end Execution

/-! ### Specification for all answers -/

/-- Every operation satisfies `guar` and every result satisfies `post`, provided the
answers satisfy `rely`. -/
def Ensures (rely guar : (op : Op) → Answer op → Prop) (post : α → Prop) :
    Program Op Answer α → Prop
  | done value => post value
  | request op next => ∀ answer, rely op answer →
      guar op answer ∧ (next answer).Ensures rely guar post

section Specification

variable {rely rely' guar guar' : (op : Op) → Answer op → Prop} {post post' : α → Prop}

@[simp] theorem ensures_pure (value : α) :
    (pure value : Program Op Answer α).Ensures rely guar post ↔ post value := Iff.rfl

@[simp] theorem ensures_ask (op : Op) {post : Answer op → Prop} :
    (ask op : Program Op Answer (Answer op)).Ensures rely guar post ↔
      ∀ answer, rely op answer → guar op answer ∧ post answer := Iff.rfl

@[simp] theorem ensures_bind (p : Program Op Answer α) (f : α → Program Op Answer β)
    {post : β → Prop} : (p >>= f).Ensures rely guar post ↔
      p.Ensures rely guar fun a => (f a).Ensures rely guar post := by
  induction p with
  | done value => exact Iff.rfl
  | request op next ih =>
    exact forall_congr' fun answer => imp_congr_right fun _ => and_congr_right fun _ => ih answer

@[simp] theorem ensures_map (p : Program Op Answer α) (f : α → β) {post : β → Prop} :
    (f <$> p).Ensures rely guar post ↔ p.Ensures rely guar fun a => post (f a) := by
  rw [← bind_pure_comp, ensures_bind]
  exact Iff.rfl

@[simp] theorem ensures_ite (c : Prop) [Decidable c] (p q : Program Op Answer α) :
    (if c then p else q).Ensures rely guar post ↔
      (c → p.Ensures rely guar post) ∧ (¬c → q.Ensures rely guar post) := by
  split <;> simp_all

/-- Consequence: assume more of the answers, promise less of the operations. -/
theorem Ensures.weaken {p : Program Op Answer α} (spec : p.Ensures rely guar post)
    (assumes : ∀ op answer, rely' op answer → rely op answer)
    (stronger : ∀ op answer, rely' op answer → guar op answer → guar' op answer)
    (result : ∀ a, post a → post' a) : p.Ensures rely' guar' post' := by
  induction p with
  | done value => exact result value spec
  | request op next ih =>
    intro answer relied
    obtain ⟨here, rest⟩ := spec answer (assumes op answer relied)
    exact ⟨stronger op answer relied here, ih answer rest⟩

theorem Ensures.mono {p : Program Op Answer α} (spec : p.Ensures rely guar post)
    (stronger : ∀ op answer, rely op answer → guar op answer → guar' op answer)
    (result : ∀ a, post a → post' a) : p.Ensures rely guar' post' :=
  spec.weaken (fun _ _ relied => relied) stronger result

theorem Ensures.imp {p : Program Op Answer α} (spec : p.Ensures rely guar post)
    (result : ∀ a, post a → post' a) : p.Ensures rely guar post' :=
  spec.mono (fun _ _ _ held => held) result

/-- Sequencing: the second program may assume what the first one established. -/
theorem Ensures.bind {p : Program Op Answer α} {f : α → Program Op Answer β} {post' : β → Prop}
    (spec : p.Ensures rely guar post) (rest : ∀ a, post a → (f a).Ensures rely guar post') :
    (p >>= f).Ensures rely guar post' :=
  (ensures_bind p f).mpr (spec.imp rest)

/-- Along an execution whose environment meets `rely`, every logged operation meets
`guar` and the result meets `post`. -/
theorem Ensures.sound {p : Program Op Answer α} (spec : p.Ensures rely guar post)
    (env : (op : Op) → S → Answer op × S) (answers : ∀ op s, rely op (env op s).1) (s : S) :
    (∀ e ∈ trace env p s, guar e.1 e.2) ∧ post (run env p s).1 := by
  induction p generalizing s with
  | done value => exact ⟨by simp [trace], spec⟩
  | request op next ih =>
    -- The answer the environment gives is one the specification covers.
    obtain ⟨here, rest⟩ := spec _ (answers op s)
    obtain ⟨log, result⟩ := ih _ rest (env op s).2
    refine ⟨?_, result⟩
    intro e member
    rcases List.mem_cons.mp member with rfl | tail
    · exact here
    · exact log e tail

/-- A state predicate kept by every operation that meets `guar` is kept by the run. -/
theorem Ensures.preserves {p : Program Op Answer α} (spec : p.Ensures rely guar post)
    (env : (op : Op) → S → Answer op × S) (answers : ∀ op s, rely op (env op s).1)
    (inv : S → Prop)
    (kept : ∀ op s, guar op (env op s).1 → inv s → inv (env op s).2)
    (s : S) (initial : inv s) : inv (run env p s).2 := by
  induction p generalizing s with
  | done value => exact initial
  | request op next ih =>
    obtain ⟨here, rest⟩ := spec _ (answers op s)
    exact ih _ rest _ (kept op s here initial)

/-- Two environments that answer every operation meeting `guar` alike, and keep their
states related, run the program alike. -/
theorem Ensures.simulation {T : Type} {p : Program Op Answer α} (spec : p.Ensures rely guar post)
    (env : (op : Op) → S → Answer op × S) (env' : (op : Op) → T → Answer op × T)
    (answers : ∀ op s, rely op (env op s).1) (rel : S → T → Prop)
    (agree : ∀ op s t, rel s t → guar op (env op s).1 →
      (env' op t).1 = (env op s).1 ∧ rel (env op s).2 (env' op t).2)
    (s : S) (t : T) (related : rel s t) :
    (run env' p t).1 = (run env p s).1 ∧ rel (run env p s).2 (run env' p t).2 ∧
      trace env' p t = trace env p s := by
  induction p generalizing s t with
  | done value => exact ⟨rfl, related, rfl⟩
  | request op next ih =>
    obtain ⟨here, rest⟩ := spec _ (answers op s)
    -- The same answer selects the same continuation, from related states.
    obtain ⟨same, kept⟩ := agree op s t related here
    obtain ⟨result, final, log⟩ := ih _ rest _ _ kept
    simp only [run, trace, same]
    exact ⟨result, final, by rw [log]⟩

end Specification

end Program

end Fex.Foundation
