import Fex.Filesystem

/-!
# Replier, request bodies and the handlers' operations

Handlers load bytes of the request body, make callbacks and store reply bytes. A
pointer argument is a `Span` (its base and the length that travels with it), so each
access says which span it was made through. `scratch` is the reassembled request
body, `slot` the ring entry's buffer that also receives the reply.
-/
namespace Fex

open Foundation

inductive Block where
  | slot
  | scratch
  deriving DecidableEq, Repr

structure Span where
  base : Nat
  len : Nat
  deriving DecidableEq, Repr

/-- `s` lies inside `t`. -/
def Span.Within (s t : Span) : Prop := t.base ≤ s.base ∧ s.base + s.len ≤ t.base + t.len

theorem Span.Within.refl (s : Span) : s.Within s := ⟨Nat.le_refl _, Nat.le_refl _⟩

theorem Span.Within.trans {s t u : Span} (first : s.Within t) (second : t.Within u) :
    s.Within u := ⟨second.1.trans first.1, first.2.trans second.2⟩

inductive Op where
  | load (blk : Block) (span : Span) (off len : Nat)
  | store (blk : Block) (span : Span) (off : Nat) (bytes : Bytes)
  | call (cb : Callback)
  | setInitDone

@[reducible] def Op.Answer : Op → Type
  | load _ _ _ len => Blob len
  | store .. => Unit
  | call cb => cb.Answer
  | setInitDone => Unit

abbrev Handler := Program Op Op.Answer

abbrev Event := (op : Op) × op.Answer

/-- The callbacks in a log, in order. -/
def callbacks (log : List Event) : List Callback :=
  log.filterMap fun e => match e.1 with
    | .call cb => some cb
    | _ => none

/-- The state a handler runs in: the slot's two buffers, `init_done` and the daemon. -/
structure World (σ : Type) where
  mem : Block → Memory
  initDone : Bool
  fs : σ

namespace World

variable {σ : Type}

def write (w : World σ) (blk : Block) (addr : Nat) (bytes : Bytes) : World σ :=
  { w with mem := Function.update w.mem blk ((w.mem blk).write addr bytes) }

/-- Perform one operation. -/
def step (fs : Filesystem σ) : (op : Op) → World σ → op.Answer × World σ
  | .load blk span off len, w => (⟨(w.mem blk).read (span.base + off) len, by simp⟩, w)
  | .store blk span off bytes, w => ((), w.write blk (span.base + off) bytes)
  | .call cb, w => ((fs.perform cb w.fs).1, { w with fs := (fs.perform cb w.fs).2 })
  | .setInitDone, w => ((), { w with initDone := true })

end World

def load (blk : Block) (span : Span) (off len : Nat) : Handler (Blob len) :=
  Program.ask (Op.load blk span off len)

def store (blk : Block) (span : Span) (off : Nat) (bytes : Bytes) : Handler Unit :=
  Program.ask (Op.store blk span off bytes)

def call (cb : Callback) : Handler cb.Answer := Program.ask (Op.call cb)

def setInitDone : Handler Unit := Program.ask Op.setInitDone

/-! ### Replier -/

structure Replier where
  out : Nat := 0
  cap : Nat := 0
  len : Nat := 0
  negErr : Int32 := 0
  unique : UInt64 := 0
  deriving DecidableEq

def Replier.span (r : Replier) : Span := ⟨r.out, r.cap⟩

def negErrno (e : Errc) : Int32 := -e

theorem negErrno_eq_zero {e : Errc} : negErrno e = 0 ↔ e = 0 := by
  constructor
  · intro zero
    have back : - -e = -0 := congrArg Neg.neg zero
    simpa using back
  · rintro rfl
    rfl

def replyError (r : Replier) (e : Errc) : Replier := { r with negErr := negErrno e, len := 0 }

def replyOk (r : Replier) : Replier := { r with negErr := 0, len := 0 }

def replyPayload (r : Replier) (p : Bytes) : Handler Replier :=
  if p.length > r.cap then pure { r with negErr := negErrno Errc.ioError, len := 0 }
  else do
    unless p.isEmpty do store .slot r.span 0 p
    pure { r with negErr := 0, len := p.length }

def replyPod {α : Type} (codec : Codec α) (r : Replier) (pod : α) : Handler Replier :=
  replyPayload r (codec.enc pod)

/-! ### Small helpers -/

def splitDuration (d : Int64) : UInt64 × UInt32 :=
  if d.toInt < 0 then (0, 0)
  else (UInt64.ofNat (d.toInt / 1000000000).toNat, UInt32.ofNat (d.toInt % 1000000000).toNat)

def makeCtx (h : FuseInHeader) : Context :=
  { uid := h.uid, gid := h.gid, pid := h.pid, nodeid := h.nodeid, unique := h.unique }

/-- Bytes of in-extension between the header and the arguments. -/
def extBytes (h : FuseInHeader) : Nat := h.totalExtlen.toNat * 8

/-- `in_arg`: the struct behind the extension blob, when it fits. -/
def inArg {α : Type} (codec : Codec α) (h : FuseInHeader) (body : Span) : Handler (Option α) :=
  if extBytes h + codec.size > body.len then pure none
  else do
    let bytes ← load .scratch body (extBytes h) codec.size
    pure (some (codec.dec bytes))

/-- `strnlen(body + off, maxlen)`: stops at the first NUL or after `maxlen` bytes. -/
def strnlen (body : Span) (off : Nat) : Nat → Handler Nat
  | 0 => pure 0
  | maxlen + 1 => do
    let c ← load .scratch body off 1
    if c.1 = [0] then pure 0
    else do
      let rest ← strnlen body (off + 1) maxlen
      pure (rest + 1)

/-- A NUL-terminated string at `off`: `strnlen`, the check that it stopped short of
`avail`, and the `string_view` over what it passed. -/
def cString (body : Span) (off avail : Nat) : Handler (Option Bytes) := do
  let nlen ← strnlen body off avail
  if nlen = avail then return none
  let name ← load .scratch body off nlen
  return some name.1

end Fex
