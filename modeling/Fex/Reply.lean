import Fex.Types
import Fex.Foundation.Program

/-!
# DirentWriter

The writer handed to `Filesystem::readdir`. A daemon sees only the verdict of each
`add`, so its `readdir` is a program whose single operation is `add`.
-/
namespace Fex

open Foundation

structure DirentWriter where
  buf : Bytes
  pos : Nat := 0

structure Dirent where
  name : Bytes
  ino : UInt64
  off : UInt64
  type : UInt32

namespace DirentWriter

/-- `(raw + 7) & ~7`. -/
def padded (raw : Nat) : Nat := (raw + 7) >>> 3 <<< 3

theorem padded_eq (raw : Nat) : padded raw = (raw + 7) / 8 * 8 := by
  simp [padded, Nat.shiftRight_eq_div_pow, Nat.shiftLeft_eq]

theorem le_padded (raw : Nat) : raw ≤ padded raw := by
  rw [padded_eq]; omega

/-- The record `add` lays down: the struct, the name and zero padding. -/
def record (d : Dirent) : Bytes :=
  FuseDirent.codec.enc
    { ino := d.ino, off := d.off, namelen := UInt32.ofNat d.name.length, type := d.type } ++
    d.name ++ List.replicate
      (padded (FuseDirent.codec.size + d.name.length) - (FuseDirent.codec.size + d.name.length)) 0

theorem length_record (d : Dirent) :
    (record d).length = padded (FuseDirent.codec.size + d.name.length) := by
  have fits := le_padded (FuseDirent.codec.size + d.name.length)
  simp only [record, List.length_append, Codec.length_enc, List.length_replicate]
  omega

def add (w : DirentWriter) (d : Dirent) : Bool × DirentWriter :=
  if padded (FuseDirent.codec.size + d.name.length) > sizeSub w.buf.length w.pos then (false, w)
  else (true,
    { buf := w.buf.take w.pos ++ record d ++ w.buf.drop (w.pos + (record d).length)
      pos := w.pos + (record d).length })

/-- The cursor is inside the buffer, so `buf_.size() - pos_` does not wrap. -/
def Valid (w : DirentWriter) : Prop := w.pos ≤ w.buf.length

theorem add_length (w : DirentWriter) (d : Dirent) (valid : w.Valid) :
    (w.add d).2.buf.length = w.buf.length := by
  have pos : w.pos ≤ w.buf.length := valid
  unfold add
  rw [sizeSub_of_le pos, ← length_record]
  split
  · rfl
  · simp only [List.length_append, List.length_take, List.length_drop]
    omega

theorem add_valid (w : DirentWriter) (d : Dirent) (valid : w.Valid) : (w.add d).2.Valid := by
  have pos : w.pos ≤ w.buf.length := valid
  have same := w.add_length d valid
  unfold Valid
  rw [same]
  unfold add
  rw [sizeSub_of_le pos, ← length_record]
  split
  · exact pos
  · simp only
    omega

/-- The cursor stands behind whole records, the smallest of which is a bare struct. -/
def Aligned (w : DirentWriter) : Prop :=
  w.pos = 0 ∨ 8 ∣ w.pos ∧ FuseDirent.codec.size ≤ w.pos

theorem add_aligned (w : DirentWriter) (d : Dirent) (aligned : w.Aligned) :
    (w.add d).2.Aligned := by
  unfold add
  split
  · exact aligned
  · have size := le_padded (FuseDirent.codec.size + d.name.length)
    have whole : 8 ∣ padded (FuseDirent.codec.size + d.name.length) := by
      rw [padded_eq]
      exact Nat.dvd_mul_left 8 _
    right
    simp only [length_record]
    rcases aligned with start | ⟨before, _⟩
    · rw [start, Nat.zero_add]
      exact ⟨whole, by omega⟩
    · exact ⟨Nat.dvd_add before whole, by omega⟩

end DirentWriter

/-- A daemon's traversal of a directory: a finite exchange of `add` calls. -/
abbrev DirentScript (α : Type) := Program Dirent (fun _ => Bool) α

def DirentScript.fill {α : Type} (script : DirentScript α) (w : DirentWriter) :
    α × DirentWriter := script.run (fun d w => w.add d) w

/-- What every `add` keeps, a whole exchange keeps. -/
theorem DirentScript.fill_invariant {α : Type} (inv : DirentWriter → Prop)
    (kept : ∀ w d, inv w → inv (w.add d).2) (script : DirentScript α) (w : DirentWriter)
    (initial : inv w) : inv (script.fill w).2 := by
  unfold fill
  induction script generalizing w with
  | done value => exact initial
  | request d next ih => exact ih _ _ (kept w d initial)

/-- Any exchange keeps the span's size and leaves the cursor inside it. -/
theorem DirentScript.fill_valid {α : Type} (script : DirentScript α) (w : DirentWriter)
    (valid : w.Valid) :
    (script.fill w).2.buf.length = w.buf.length ∧ (script.fill w).2.Valid := by
  refine fill_invariant (fun v => v.buf.length = w.buf.length ∧ v.Valid) ?_ script w ⟨rfl, valid⟩
  rintro v d ⟨length, inside⟩
  exact ⟨(v.add_length d inside).trans length, v.add_valid d inside⟩

theorem DirentScript.fill_aligned {α : Type} (script : DirentScript α) (w : DirentWriter)
    (aligned : w.Aligned) : (script.fill w).2.Aligned :=
  fill_invariant DirentWriter.Aligned DirentWriter.add_aligned script w aligned

end Fex
