import Fex.Properties.Linearization
import Fex.Properties.RemoteCalls

/-!
# Concurrent calls

`Call`s that the kernel has laid out in slots of its choice are handled by workers that may be
interrupted after any operation.

## Scope

As in `Properties.Linearization`, every callback of the daemon is taken to take effect atomically.
The slots have room for the largest struct of a reply, `fuse_statx_out`, and the length of a reply
fits 32 bits.

## Main result

`concurrent_calls_linearizable`: what the kernel decodes is what it would have been told by a
daemon called directly, one call at a time, each at one point between the time it was laid out and
the time its reply was taken; the daemon ends in the state after these calls.

## Proof strategy

A call that is laid out is no COMPOUND, so it turns to the daemon once at most
(`callbacks_handleOne_le`) and the workers are a server that handles one request after the other
(`linearizable`). Such a request does what the direct call does (`SentCall.completes`), and a
server may be seen through what the kernel decodes (`Service.reachable_view`).
-/
namespace Fex

open Foundation Program

/-- A call on its way: the entry, its buffers, and the call the kernel laid out there. -/
structure SentCall (payloadBytes : Nat) where
  entry : Entry
  mem : Block → Memory
  header : FuseInHeader
  call : Call
  allocated : entry.Allocated payloadBytes
  sends : SendsCall payloadBytes (⟨mem, false, ()⟩ : World Unit) header call

/-- Laying out a call concerns the buffers only. -/
theorem SendsCall.of_mem {σ τ : Type} {payloadBytes : Nat} {w : World σ} {h : FuseInHeader}
    {c : Call} (sends : SendsCall payloadBytes w h c) (initDone : Bool) (t : τ) :
    SendsCall payloadBytes ⟨w.mem, initDone, t⟩ h c := by
  obtain ⟨first, rest, laid, sizes, encoded⟩ := sends.layout
  exact ⟨sends.wellFormed, sends.opcode, sends.plain, first, rest,
    ⟨laid.inOut, laid.opIn, laid.payload, laid.payloadSz⟩, sizes, encoded⟩

section Calls

variable {σ ι : Type} {payloadBytes : Nat} (fs : Filesystem σ) (opts : SessionOptions)

namespace SentCall

/-- What a worker runs for it. The result says which call it belongs to. -/
def code (j : SentCall payloadBytes) :
    Handler (SentCall payloadBytes × (Entry × UInt32)) × (Block → Memory) :=
  ((j, ·) <$> handleOne opts payloadBytes j.entry, j.mem)

/-- What the kernel finds in the slot of a call that has returned. -/
def received (result : (SentCall payloadBytes × (Entry × UInt32)) × (Block → Memory)) :
    SentCall payloadBytes × Option (Except Errc Result) :=
  (result.1.1, result.1.1.call.replyIn ⟨result.2, false, ()⟩)

/-- The call made on the daemon directly. -/
def direct (j : SentCall payloadBytes) (s : σ) :
    (SentCall payloadBytes × Option (Except Errc Result)) × σ :=
  let ran := j.call.direct fs payloadBytes j.header ⟨j.mem, false, s⟩
  ((j, some (ran.1 >>= j.call.carried payloadBytes)), ran.2)

/-- A worker that is not interrupted does what the direct call does. -/
theorem completes (j : SentCall payloadBytes) (errors : fs.ErrorsSatisfy (· ≠ 0))
    (room : FuseStatxOut.codec.size ≤ payloadBytes)
    (bounded : payloadBytes + FuseOutHeader.codec.size < 2 ^ 32) (s : σ) :
    j.direct fs s = (received (atOnce (daemonAccess fs) (code opts) j s).1,
      (atOnce (daemonAccess fs) (code opts) j s).2) := by
  let w : World σ := ⟨j.mem, false, s⟩
  have done := handleOne_completes fs errors opts payloadBytes room bounded j.entry j.allocated w
    j.header j.call (j.sends.of_mem false s)
  have handled : atOnce (daemonAccess fs) (code opts) j s =
      (((j, (run (World.step fs) (handleOne opts payloadBytes j.entry) w).1),
        (run (World.step fs) (handleOne opts payloadBytes j.entry) w).2.mem),
        (run (World.step fs) (handleOne opts payloadBytes j.entry) w).2.fs) := by
    rw [atOnce, code, run_map, run_daemonAccess fs _ w]
  rw [handled]
  -- Nothing below depends on how the request was handled.
  generalize run (World.step fs) (handleOne opts payloadBytes j.entry) w = ran at done
  rw [done.state]
  exact Prod.ext (Prod.ext rfl done.reply.symm) rfl

/-- It turns to the daemon once at most. -/
theorem shots_le (j : SentCall payloadBytes) (s : σ) :
    (daemonAccess fs).shots (j.code opts).1 (j.code opts).2 s ≤ 1 := by
  obtain ⟨first, rest, laid, -⟩ := (j.sends.of_mem false s).layout
  have leaf : (slotHeader (⟨j.mem, false, s⟩ : World σ)).opcode ≠ Opcode.compound.code := by
    rw [laid.header, j.sends.opcode]
    exact j.call.opcode_ne_compound
  rw [code, shots_eq_callbacks fs _ ⟨j.mem, false, s⟩, trace_map]
  exact callbacks_handleOne_le fs opts payloadBytes j.entry _ leaf

end SentCall

/-- The workers of a session while the kernel sends calls. -/
def callWorkers [DecidableEq ι] (start : σ) :
    Machine (Pool ι Op Op.Answer (SentCall payloadBytes × (Entry × UInt32)) (Block → Memory)
      (Bool × σ) (SentCall payloadBytes)) (PoolAction ι (SentCall payloadBytes)) :=
  Pool.machine (workerStep fs) (SentCall.code opts) id (false, start)

variable {fs opts} [DecidableEq ι] {start : σ}
  {w : Pool ι Op Op.Answer (SentCall payloadBytes × (Entry × UInt32)) (Block → Memory) (Bool × σ)
    (SentCall payloadBytes)}

/-- Concurrent calls through the ring are direct calls, made one after the other, to a daemon each
of whose callbacks takes effect atomically. -/
theorem concurrent_calls_linearizable (errors : fs.ErrorsSatisfy (· ≠ 0))
    (room : FuseStatxOut.codec.size ≤ payloadBytes)
    (bounded : payloadBytes + FuseOutHeader.codec.size < 2 ^ 32)
    (reachable : (callWorkers fs opts start).Reachable w) :
    ∃ served : Service ι (SentCall payloadBytes)
        (SentCall payloadBytes × Option (Except Errc Result)) σ,
      (Service.machine (SentCall.direct fs) start).Reachable served ∧
      served.history = w.history.map (.map SentCall.received) ∧ served.shared = w.shared.2 := by
  have single (i : ι) (j : SentCall payloadBytes) (_ : True) (s : σ) :
      (daemonAccess fs).shots (j.code opts).1 (j.code opts).2 s ≤ 1 :=
    j.shots_le fs opts s
  obtain ⟨served, runs, history, shared⟩ :=
    linearizable single (Pool.reachable_project (daemonAccess_env fs) reachable)
  refine ⟨served.view SentCall.received, Service.reachable_view _ ?_ runs, ?_, shared⟩
  · exact fun j s => j.completes fs opts errors room bounded s
  · exact congrArg _ history

end Calls

/-- LOOKUPX of the name `ab`. -/
def sentLookup : SentCall 4096 where
  entry := Entry.start 4096
  mem := splitSlot.mem
  header := splitLookup
  call := .args (.lookupx [97, 98])
  allocated := rfl
  sends := sendsCall_lookup.of_mem false ()

/-- Two workers, the second of which is called later and done first. -/
def overtaking : List (PoolAction Bool (SentCall 4096)) :=
  [.call false sentLookup] ++ List.replicate 10 (.step false) ++ [.call true sentLookup] ++
    List.replicate 14 (.step true) ++ [.finish true] ++ List.replicate 4 (.step false) ++
      [.finish false]

theorem concurrent_calls_linearizable_lookups :
    let fs := Filesystem.leading 9
    ∃ w : Pool Bool Op Op.Answer (SentCall 4096 × (Entry × UInt32)) (Block → Memory) (Bool × Unit)
        (SentCall 4096),
      w.history.length = 4 ∧
      ∃ served : Service Bool (SentCall 4096) (SentCall 4096 × Option (Except Errc Result)) Unit,
        (Service.machine (SentCall.direct fs) ()).Reachable served ∧
        served.history = w.history.map (.map SentCall.received) ∧
        served.shared = w.shared.2 := by
  intro fs
  have ran : ((callWorkers fs {} ()).exec { shared := (false, ()) } overtaking).map
      (fun w => w.history.length) = some 4 := by
    decide +kernel
  obtain ⟨w, ends, length⟩ := Option.map_eq_some_iff.mp ran
  have reachable := Machine.ReachableBy.exec (.start rfl) _ (fun _ _ _ => trivial) ends
  exact ⟨w, length, concurrent_calls_linearizable (Filesystem.leading_errorsSatisfy 9 (by decide))
    (by decide) (by decide) reachable⟩

end Fex
