import Fex.Foundation.Interleaving
import Fex.Properties.ReplyBounds

/-!
# Requests on several queues at once

Each ring worker handles the request in one of its slots while the other workers handle theirs.
They share the daemon and `init_done`; the buffers of a slot belong to the worker that handles it.

## Scope

A callback is one operation: every callback of the daemon is taken to take effect atomically.
`session.hpp` asks only for thread-safe callbacks; a daemon whose SETSTATX can be seen half done
by a STATX is not covered.

## Main results

- `workers_interleave_at_callbacks`: whatever the workers do, they also do when a worker is
  interrupted only right before a callback. In particular the rounds of a COMPOUND are not
  interrupted anywhere else.
- `workers_linearizable`: as long as no COMPOUND is delivered, and with callbacks that take effect
  atomically, the kernel sees the replies of a daemon that handles one request after the other,
  each between its delivery and its reply.

## Proof strategy

`init_done` is written and never read by `handle_one`, so the workers run without it. What is left
to share is the daemon, which only callbacks reach, and `callbacks_handleOne_le` counts them.
-/
namespace Fex

open Foundation Program

/-- A request the kernel completes to a worker: the entry and what its buffers hold. -/
structure Delivery where
  entry : Entry
  mem : Block → Memory

namespace Delivery

def opcode (d : Delivery) : UInt32 :=
  (FuseInHeader.codec.dec ((d.mem .slot).read 0 FuseInHeader.codec.size)).opcode

/-- What the worker runs for it. -/
def code (opts : SessionOptions) (payloadBytes : Nat) (d : Delivery) :
    Handler (Entry × UInt32) × (Block → Memory) :=
  (handleOne opts payloadBytes d.entry, d.mem)

end Delivery

section Workers

variable {σ ι : Type} (fs : Filesystem σ) (opts : SessionOptions) (payloadBytes : Nat)

/-- One operation of a worker: its own buffers, and `init_done` and the daemon of all. -/
def workerStep (op : Op) (w : (Block → Memory) × (Bool × σ)) :
    op.Answer × ((Block → Memory) × (Bool × σ)) :=
  let ran := World.step fs op ⟨w.1, w.2.1, w.2.2⟩
  (ran.1, (ran.2.mem, (ran.2.initDone, ran.2.fs)))

/-- The workers of a session, each of which may be interrupted after any operation; a callback
is one operation. -/
def workers [DecidableEq ι] (start : σ) :
    Machine (Pool ι Op Op.Answer (Entry × UInt32) (Block → Memory) (Bool × σ) Delivery)
      (PoolAction ι Delivery) :=
  Pool.machine (workerStep fs) (Delivery.code opts payloadBytes) id (false, start)

/-- The request handled alone: the entry and size `handle_one` returns, and the buffers. -/
def handleAtOnce (d : Delivery) (s : σ) : ((Entry × UInt32) × (Block → Memory)) × σ :=
  let ran := run (World.step fs) (handleOne opts payloadBytes d.entry) ⟨d.mem, false, s⟩
  ((ran.1, ran.2.mem), ran.2.fs)

/-- Callbacks reach the daemon, everything else the worker's own buffers. -/
def daemonAccess : Access Op Op.Answer (Block → Memory) σ
  | .load blk span off len => .inl fun m => (⟨(m blk).read (span.base + off) len, by simp⟩, m)
  | .store blk span off bytes =>
    .inl fun m => ((), Function.update m blk ((m blk).write (span.base + off) bytes))
  | .call cb => .inr (fs.perform cb)
  | .setInitDone => .inl fun m => ((), m)

/-! ### Without the flag -/

theorem daemonAccess_env (op : Op) (m : Block → Memory) (s : Bool × σ) :
    (daemonAccess fs).env op (m, s.2) =
      ((workerStep fs op (m, s)).1,
        ((workerStep fs op (m, s)).2.1, (workerStep fs op (m, s)).2.2.2)) := by
  cases op <;> rfl

theorem run_daemonAccess {α : Type} (p : Handler α) (w : World σ) :
    run (daemonAccess fs).env p (w.mem, w.fs) =
      ((run (World.step fs) p w).1,
        ((run (World.step fs) p w).2.mem, (run (World.step fs) p w).2.fs)) := by
  induction p generalizing w with
  | done value => rfl
  | request op next ih =>
    rw [run, run, daemonAccess_env fs op w.mem (w.initDone, w.fs)]
    exact ih _ _

theorem atOnce_eq_handleAtOnce :
    atOnce (daemonAccess fs) (Delivery.code opts payloadBytes) =
      handleAtOnce fs opts payloadBytes := by
  funext d s
  simp only [atOnce, Delivery.code, handleAtOnce, run_daemonAccess fs _ ⟨d.mem, false, s⟩]

/-! ### How often a request turns to the daemon -/

theorem shots_eq_callbacks {α : Type} (p : Handler α) (w : World σ) :
    (daemonAccess fs).shots p w.mem w.fs = (callbacks (trace (World.step fs) p w)).length := by
  induction p generalizing w with
  | done value => rfl
  | request op next ih =>
    have later := ih (World.step fs op w).1 (World.step fs op w).2
    have env := daemonAccess_env fs op w.mem (w.initDone, w.fs)
    rw [Access.shots] at later ⊢
    rw [trace, trace, env]
    cases op with
    | call cb => exact (List.countP_cons_of_pos rfl).trans (congrArg (· + 1) later)
    | load | store | setInitDone =>
      exact (List.countP_cons_of_neg (by simp [daemonAccess])).trans later

theorem Decoded.callbacks_length_le (h : FuseInHeader) (r : Replier) (slot : Memory)
    (d : Decoded) : (d.callbacks opts h r slot).length ≤ 1 := by
  cases d with
  | accept q => exact Nat.le_refl 1
  | reject e => exact Nat.zero_le 1
  | ignore => exact Nat.zero_le 1

/-- A request other than COMPOUND makes one callback, or none if it is refused. -/
theorem callbacks_handleOne_le (e : Entry) (w : World σ)
    (leaf : (slotHeader w).opcode ≠ Opcode.compound.code) :
    (callbacks (trace (World.step fs) (handleOne opts payloadBytes e) w)).length ≤ 1 := by
  by_cases oversized : Oversize w e
  · rw [(handleOne_oversize fs w opts payloadBytes e oversized).2]
    exact Nat.zero_le 1
  · rw [(handleOne_dispatches fs w opts payloadBytes e oversized).2, slotDispatch,
      dispatch_leaf _ _ _ _ leaf, callbacks_dispatchLeaf]
    exact Decoded.callbacks_length_le ..

/-! ### The workers together -/

variable {fs opts payloadBytes} [DecidableEq ι] {start : σ}
  {w : Pool ι Op Op.Answer (Entry × UInt32) (Block → Memory) (Bool × σ) Delivery}

/-- Every history of the workers, COMPOUND or not, is one in which each worker runs from one
callback to the next without an interruption. -/
theorem workers_interleave_at_callbacks
    (reachable : (workers fs opts payloadBytes start).Reachable w) :
    ∃ t, (Pool.machine (daemonAccess fs).env (Delivery.code opts payloadBytes)
          (fun t => (daemonAccess fs).settle t.1 t.2) start).Reachable t ∧
      t.history = w.history ∧ t.shared = w.shared.2 :=
  ⟨_, reachable_settled (Pool.reachable_project (daemonAccess_env fs) reachable), rfl, rfl⟩

/-- LOOKUPX of the name `a`, laid out in a slot. -/
def lookupDelivery : Delivery where
  entry := Entry.start 4096
  mem := (layOut (idle ()) lookupOfA.header lookupOfA.payload []).mem

/-- A COMPOUND of the same LOOKUPX and a STATX of what it leads to. -/
def compoundDelivery : Delivery where
  entry := Entry.start 4096
  mem := compoundSlot.mem

/-- Worker `false` makes `before` operations, then worker `true` handles a whole LOOKUPX, then
worker `false` makes `after` more and is done. -/
def overtaken (d : Delivery) (before after : Nat) : List (PoolAction Bool Delivery) :=
  [.call false d, .call true lookupDelivery] ++ List.replicate before (.step false) ++
    List.replicate 11 (.step true) ++ [.finish true] ++ List.replicate after (.step false) ++
      [.finish false]

/-- The LOOKUPX comes between the two callbacks of the COMPOUND. -/
theorem workers_interleave_at_callbacks_compound :
    let fs := Filesystem.leading 9
    (callbacks (trace (World.step fs) (handleOne {} 4096 (Entry.start 4096))
      compoundSlot)).length = 2 ∧
    ∃ w : Pool Bool Op Op.Answer (Entry × UInt32) (Block → Memory) (Bool × Unit) Delivery,
      (workers fs {} 4096 ()).Reachable w ∧ w.history.length = 4 ∧
      ∃ t, (Pool.machine (daemonAccess fs).env (Delivery.code {} 4096)
            (fun t => (daemonAccess fs).settle t.1 t.2) ()).Reachable t ∧
        t.history = w.history ∧ t.shared = w.shared.2 := by
  intro fs
  have ran : ((workers fs {} 4096 ()).exec { shared := (false, ()) }
      (overtaken compoundDelivery 15 9)).map (fun w => w.history.length) = some 4 := by
    decide +kernel
  obtain ⟨w, ends, length⟩ := Option.map_eq_some_iff.mp ran
  have reachable := Machine.ReachableBy.exec (.start rfl) _ (fun _ _ _ => trivial) ends
  exact ⟨by decide +kernel, w, reachable, length, workers_interleave_at_callbacks reachable⟩

/-- Requests other than COMPOUND are handled as if one after the other, by a daemon each of whose
callbacks takes effect atomically. -/
theorem workers_linearizable
    (reachable : (workers fs opts payloadBytes start).ReachableBy
      (fun _ a => ∀ i d, a = .call i d → d.opcode ≠ Opcode.compound.code) w) :
    ∃ served : Service ι Delivery ((Entry × UInt32) × (Block → Memory)) σ,
      (Service.machine (handleAtOnce fs opts payloadBytes) start).Reachable served ∧
      served.history = w.history ∧ served.shared = w.shared.2 := by
  rw [← atOnce_eq_handleAtOnce]
  refine linearizable ?_ (Pool.reachable_project (daemonAccess_env fs) reachable)
  intro i d leaf s
  rw [Delivery.code, shots_eq_callbacks fs _ ⟨d.mem, false, s⟩]
  exact callbacks_handleOne_le fs opts payloadBytes d.entry _ (leaf i d rfl)

/-- Two requests for the same name; the one that was begun first is answered last. -/
theorem workers_linearizable_lookups :
    let fs := Filesystem.leading 9
    ∃ w : Pool Bool Op Op.Answer (Entry × UInt32) (Block → Memory) (Bool × Unit) Delivery,
      w.history.length = 4 ∧
      ∃ served : Service Bool Delivery ((Entry × UInt32) × (Block → Memory)) Unit,
        (Service.machine (handleAtOnce fs {} 4096) ()).Reachable served ∧
        served.history = w.history ∧ served.shared = w.shared.2 := by
  intro fs
  have ran : ((workers fs {} 4096 ()).exec { shared := (false, ()) }
      (overtaken lookupDelivery 6 5)).map (fun w => w.history.length) = some 4 := by
    decide +kernel
  have leaf : lookupDelivery.opcode ≠ Opcode.compound.code := by decide +kernel
  have leaves : ∀ a ∈ overtaken lookupDelivery 6 5, ∀ i d, a = .call i d →
      d.opcode ≠ Opcode.compound.code := by
    rintro a member i d rfl
    have called : i = false ∧ d = lookupDelivery ∨ i = true ∧ d = lookupDelivery := by
      simpa [overtaken] using member
    rcases called with ⟨-, rfl⟩ | ⟨-, rfl⟩ <;> exact leaf
  obtain ⟨w, ends, length⟩ := Option.map_eq_some_iff.mp ran
  exact ⟨w, length,
    workers_linearizable (Machine.ReachableBy.exec (.start rfl) _ (fun _ => leaves) ends)⟩

end Workers

end Fex
