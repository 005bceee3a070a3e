import Fex.Request

/-!
# Executing handlers

How each operation acts on a `World`, and what the parsing primitives return in
terms of the bytes of the request body.
-/
namespace Fex

open Foundation Program

variable {σ : Type} (fs : Filesystem σ) (w : World σ)

/-! ### Worlds -/

@[simp] theorem World.write_mem_same (blk : Block) (addr : Nat) (bs : Bytes) :
    (w.write blk addr bs).mem blk = (w.mem blk).write addr bs := by
  simp [World.write]

@[simp] theorem World.write_mem_scratch (addr : Nat) (bs : Bytes) :
    (w.write .slot addr bs).mem .scratch = w.mem .scratch := by
  simp [World.write]

@[simp] theorem World.write_mem_slot (addr : Nat) (bs : Bytes) :
    (w.write .scratch addr bs).mem .slot = w.mem .slot := by
  simp [World.write]

@[simp] theorem World.write_fs (blk : Block) (addr : Nat) (bs : Bytes) :
    (w.write blk addr bs).fs = w.fs := rfl

@[simp] theorem World.write_initDone (blk : Block) (addr : Nat) (bs : Bytes) :
    (w.write blk addr bs).initDone = w.initDone := rfl

theorem World.write_nil (blk : Block) (addr : Nat) : w.write blk addr [] = w := by
  unfold World.write
  rw [Memory.write_nil, Function.update_eq_self]

/-! ### Operations -/

@[simp] theorem run_load (blk : Block) (span : Span) (off len : Nat) :
    run (World.step fs) (load blk span off len) w =
      (⟨(w.mem blk).read (span.base + off) len, by simp⟩, w) := rfl

@[simp] theorem run_store (blk : Block) (span : Span) (off : Nat) (bytes : Bytes) :
    run (World.step fs) (store blk span off bytes) w =
      ((), w.write blk (span.base + off) bytes) := rfl

@[simp] theorem run_call (cb : Callback) :
    run (World.step fs) (call cb) w =
      ((fs.perform cb w.fs).1, { w with fs := (fs.perform cb w.fs).2 }) := rfl

@[simp] theorem run_setInitDone :
    run (World.step fs) setInitDone w = ((), { w with initDone := true }) := rfl

/-- What was accepted is made of the arguments its parser found. -/
theorem parsed_of_accept {α : Type} {make : α → Request} {parse : Handler (Option α)} {q : Request}
    (accepted : (run (World.step fs) (Decoded.ofArgs make <$> parse) w).1 = .accept q) :
    ∃ args, (run (World.step fs) parse w).1 = some args ∧ make args = q := by
  rw [run_map] at accepted
  cases parsed : (run (World.step fs) parse w).1 with
  | none =>
    rw [parsed] at accepted
    cases accepted
  | some args =>
    rw [parsed] at accepted
    exact ⟨args, rfl, Decoded.accept.inj accepted⟩

/-! ### Callbacks in a log -/

@[simp] theorem callbacks_nil : callbacks [] = [] := rfl

@[simp] theorem callbacks_append (a b : List Event) :
    callbacks (a ++ b) = callbacks a ++ callbacks b := List.filterMap_append

@[simp] theorem callbacks_load (blk : Block) (span : Span) (off len : Nat) :
    callbacks (trace (World.step fs) (load blk span off len) w) = [] := rfl

@[simp] theorem callbacks_store (blk : Block) (span : Span) (off : Nat) (bytes : Bytes) :
    callbacks (trace (World.step fs) (store blk span off bytes) w) = [] := rfl

@[simp] theorem callbacks_call (cb : Callback) :
    callbacks (trace (World.step fs) (call cb) w) = [cb] := rfl

@[simp] theorem callbacks_setInitDone :
    callbacks (trace (World.step fs) setInitDone w) = [] := rfl

/-- A log without callbacks. -/
theorem callbacks_eq_nil {log : List Event} (none : ∀ e ∈ log, ∀ cb, e.1 ≠ .call cb) :
    callbacks log = [] := by
  apply List.filterMap_eq_nil_iff.mpr
  rintro ⟨op, answer⟩ member
  cases op with
  | call cb => exact absurd rfl (none _ member cb)
  | load | store | setInitDone => rfl

/-! ### C strings -/

theorem run_strnlen (body : Span) (off maxlen : Nat) :
    run (World.step fs) (strnlen body off maxlen) w =
      ((beforeNul ((w.mem .scratch).read (body.base + off) maxlen)).length, w) := by
  induction maxlen generalizing off with
  | zero => rfl
  | succ maxlen ih =>
    simp only [strnlen, run_bind, run_load, Memory.read]
    by_cases nul : w.mem .scratch (body.base + off) = 0
    · simp [nul, beforeNul]
    · simp [nul, beforeNul, ih, Nat.add_assoc]

theorem run_cString (body : Span) (off avail : Nat) :
    run (World.step fs) (cString body off avail) w =
      (if (beforeNul ((w.mem .scratch).read (body.base + off) avail)).length = avail then none
        else some (beforeNul ((w.mem .scratch).read (body.base + off) avail)), w) := by
  simp only [cString, run_bind, run_strnlen]
  split
  · rfl
  · have bound := length_beforeNul_le ((w.mem .scratch).read (body.base + off) avail)
    rw [Memory.length_read] at bound
    simp only [run_bind, run_load, run_pure]
    rw [beforeNul_eq_take ((w.mem .scratch).read (body.base + off) avail)]
    have slice := Memory.read_slice (w.mem .scratch) (body.base + off) avail 0 _
      (by simpa using bound)
    simp only [Nat.add_zero, List.drop_zero] at slice
    rw [← slice, run_strnlen]

@[simp] theorem run_cString_world (body : Span) (off avail : Nat) :
    (run (World.step fs) (cString body off avail) w).2 = w := by
  rw [run_cString]

theorem run_inArg {α : Type} (codec : Codec α) (h : FuseInHeader) (body : Span) :
    run (World.step fs) (inArg codec h body) w =
      (if extBytes h + codec.size > body.len then none
        else some (codec.dec ((w.mem .scratch).read (body.base + extBytes h) codec.size)), w) := by
  unfold inArg
  split <;> rfl

theorem extBytes_plain {h : FuseInHeader} (plain : h.totalExtlen = 0) : extBytes h = 0 := by
  simp [extBytes, plain]

/-- Without extensions, an argument at the front of the body is read as it was written. -/
theorem run_inArg_plain {α : Type} {codec : Codec α} {h : FuseInHeader} {body : Span} {arg : α}
    (plain : h.totalExtlen = 0)
    (bytes : codec.enc arg <+: (w.mem .scratch).read body.base body.len) :
    run (World.step fs) (inArg codec h body) w = (some arg, w) := by
  obtain ⟨fits, front⟩ := Memory.read_of_prefix bytes
  rw [Codec.length_enc] at fits front
  have room : ¬0 + codec.size > body.len := by omega
  rw [run_inArg, extBytes_plain plain, if_neg room, Nat.add_zero, front, Codec.dec_enc]

/-! ### Struct replies -/

theorem run_replyPod {α : Type} (codec : Codec α) (r : Replier) (pod : α)
    (room : codec.size ≤ r.cap) :
    run (World.step fs) (replyPod codec r pod) w =
      ({ r with negErr := 0, len := codec.size }, w.write .slot r.out (codec.enc pod)) := by
  have fits : ¬(codec.enc pod).length > r.cap := by
    rw [codec.length_enc]
    exact Nat.not_lt.mpr room
  rw [replyPod, replyPayload, if_neg fits, codec.length_enc]
  cases codec.enc pod with
  | nil =>
    rw [World.write_nil]
    rfl
  | cons b bs => rfl

theorem replyPod_cramped {α : Type} (codec : Codec α) (r : Replier) (pod : α)
    (cramped : ¬codec.size ≤ r.cap) :
    (run (World.step fs) (replyPod codec r pod) w).1.negErr ≠ 0 := by
  have tooLong : (codec.enc pod).length > r.cap := by
    rw [codec.length_enc]
    exact Nat.not_le.mp cramped
  rw [replyPod, replyPayload, if_pos tooLong, run_pure]
  exact (by decide : negErrno Errc.ioError ≠ 0)

end Fex
