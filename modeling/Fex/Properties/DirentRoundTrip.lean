import Fex.Foundation.Records
import Fex.Serving

/-!
# Directory entries round-trip

## Main result

`fill_packs`: after any exchange of `add` calls the written part of the buffer, walked
record by record, is the list of the accepted entries with zero padding, just when their
names have less than 2 ^ 32 bytes; the cursor is a multiple of 8 inside the buffer; and a
call is refused, without any effect, just when its padded record does not fit.

## Proof strategy

`add_written` says what one call appends, `fill_written` what an exchange appends: the
records of the accepted entries. A record is read back in front of anything
(`readDirent_record`), unless `namelen` cannot hold the length of the name.
-/
namespace Fex

open Foundation Program

namespace DirentWriter

/-- The part of the buffer that is returned to the kernel. -/
def written (w : DirentWriter) : Bytes := w.buf.take w.pos

/-- The zero bytes behind the name. -/
def padding (d : Dirent) : Bytes :=
  List.replicate
    (padded (FuseDirent.codec.size + d.name.length) - (FuseDirent.codec.size + d.name.length)) 0

/-! ### Calls -/

theorem add_refuses_iff (w : DirentWriter) (d : Dirent) (valid : w.Valid) :
    (w.add d).1 = false ↔
      w.buf.length < w.pos + padded (FuseDirent.codec.size + d.name.length) := by
  have inside : w.pos ≤ w.buf.length := valid
  unfold add
  rw [sizeSub_of_le inside]
  split
  next full =>
    have tooLong : w.buf.length < w.pos + padded (FuseDirent.codec.size + d.name.length) := by omega
    exact iff_of_true rfl tooLong
  next room =>
    have fits : ¬w.buf.length < w.pos + padded (FuseDirent.codec.size + d.name.length) := by omega
    exact iff_of_false Bool.noConfusion fits

theorem add_refused (w : DirentWriter) (d : Dirent) (refused : (w.add d).1 = false) :
    (w.add d).2 = w := by
  unfold add at refused ⊢
  split
  · rfl
  next room =>
    rw [if_neg room] at refused
    cases refused

/-- An accepted call appends its record to what is written. -/
theorem add_written (w : DirentWriter) (d : Dirent) (valid : w.Valid)
    (accepted : (w.add d).1 = true) : (w.add d).2.written = w.written ++ record d := by
  have inside : w.pos ≤ w.buf.length := valid
  unfold add at accepted ⊢
  split
  next full =>
    rw [if_pos full] at accepted
    cases accepted
  · have front : (w.buf.take w.pos ++ record d).length = w.pos + (record d).length := by
      rw [List.length_append, List.length_take, Nat.min_eq_left inside]
    exact List.take_left' front

end DirentWriter

/-- The entries whose `add` returned true, in order. -/
def DirentScript.accepted {α : Type} (script : DirentScript α) (w : DirentWriter) : List Dirent :=
  (script.trace (fun d w => w.add d) w).filterMap fun e => if e.2 then some e.1 else none

/-- An exchange appends the records of the accepted entries. -/
theorem DirentScript.fill_written {α : Type} (script : DirentScript α) (w : DirentWriter)
    (valid : w.Valid) :
    (script.fill w).2.written =
      w.written ++ (script.accepted w).flatMap DirentWriter.record := by
  unfold fill accepted
  induction script generalizing w with
  | done value => simp [run, trace]
  | request d next ih =>
    have later := ih (w.add d).1 (w.add d).2 (w.add_valid d valid)
    rw [run, trace, later]
    cases verdict : (w.add d).1 with
    | true => simp [w.add_written d valid verdict]
    | false => simp [w.add_refused d verdict]

/-- The same from an empty writer. -/
theorem DirentScript.fill_records {α : Type} (script : DirentScript α) (buf : Bytes) :
    (script.fill { buf }).2.written =
      (script.accepted { buf }).flatMap DirentWriter.record :=
  script.fill_written { buf } (Nat.zero_le _)

/-! ### The kernel's walk -/

/-- One record as the kernel takes it off its buffer: `FUSE_DIRENT_SIZE(d)` bytes, the name
and the padding behind it. -/
def readDirent (bs : Bytes) : Option ((Dirent × Bytes) × Bytes) :=
  if bs.length < FuseDirent.codec.size then none
  else
    let d := FuseDirent.codec.dec (bs.take FuseDirent.codec.size)
    let raw := FuseDirent.codec.size + d.namelen.toNat
    let size := DirentWriter.padded raw
    if bs.length < size then none
    else
      let name := (bs.drop FuseDirent.codec.size).take d.namelen.toNat
      some (({ name, ino := d.ino, off := d.off, type := d.type },
        (bs.drop raw).take (size - raw)), bs.drop size)

/-- All records of a reply, and nothing left over. -/
def walkDirents (bs : Bytes) : Option (List (Dirent × Bytes)) := walk readDirent bs.length bs

theorem readDirent_record (d : Dirent) (short : d.name.length < 2 ^ 32) (rest : Bytes) :
    readDirent (DirentWriter.record d ++ rest) = some ((d, DirentWriter.padding d), rest) := by
  have namelen : (UInt32.ofNat d.name.length).toNat = d.name.length :=
    UInt32.toNat_ofNat_of_lt' short
  have fits := DirentWriter.le_padded (FuseDirent.codec.size + d.name.length)
  have length := DirentWriter.length_record d
  have zeros : (DirentWriter.padding d).length =
      DirentWriter.padded (FuseDirent.codec.size + d.name.length) -
        (FuseDirent.codec.size + d.name.length) := List.length_replicate
  have total : (DirentWriter.record d ++ rest).length =
      DirentWriter.padded (FuseDirent.codec.size + d.name.length) + rest.length := by
    rw [List.length_append, length]
  -- The record from the front: the struct, the name, the padding.
  have front : DirentWriter.record d ++ rest = FuseDirent.codec.enc
      { ino := d.ino, off := d.off, namelen := UInt32.ofNat d.name.length, type := d.type } ++
        (d.name ++ (DirentWriter.padding d ++ rest)) := by
    simp only [DirentWriter.record, DirentWriter.padding, List.append_assoc]
  have struct : FuseDirent.codec.dec ((DirentWriter.record d ++ rest).take FuseDirent.codec.size) =
      { ino := d.ino, off := d.off, namelen := UInt32.ofNat d.name.length, type := d.type } := by
    rw [front, List.take_left' (Codec.length_enc ..), Codec.dec_enc]
  have named : (DirentWriter.record d ++ rest).drop FuseDirent.codec.size =
      d.name ++ (DirentWriter.padding d ++ rest) := by
    rw [front, List.drop_left' (Codec.length_enc ..)]
  have behind : (DirentWriter.record d ++ rest).drop (FuseDirent.codec.size + d.name.length) =
      DirentWriter.padding d ++ rest := by
    rw [← List.drop_drop, named, List.drop_left]
  unfold readDirent
  dsimp only
  rw [struct]
  dsimp only
  rw [namelen, if_neg (by omega), if_neg (by omega), named, List.take_left, behind,
    List.take_left' zeros, List.drop_left' length]

theorem readDirent_short {bs rest : Bytes} {found : Dirent × Bytes}
    (read : readDirent bs = some (found, rest)) : found.1.name.length < 2 ^ 32 := by
  unfold readDirent at read
  split at read
  · cases read
  · dsimp only at read
    split at read
    · cases read
    · cases read
      exact Nat.lt_of_le_of_lt (List.length_take_le _ _) (UInt32.toNat_lt _)

/-! ### Any exchange of calls -/

/-- What is promised of a writer over `buf` that has accepted `entries`. -/
structure Packs (buf : Bytes) (entries : List Dirent) (w : DirentWriter) : Prop where
  length : w.buf.length = buf.length
  inside : w.pos ≤ w.buf.length
  aligned : 8 ∣ w.pos
  walks : walkDirents w.written = some (entries.map fun d => (d, DirentWriter.padding d)) ↔
    ∀ d ∈ entries, d.name.length < 2 ^ 32
  refuses : ∀ d, (w.add d).1 = false ↔
    w.buf.length < w.pos + DirentWriter.padded (FuseDirent.codec.size + d.name.length)
  unchanged : ∀ d, (w.add d).1 = false → (w.add d).2 = w

theorem walkDirents_records_iff (entries : List Dirent) :
    walkDirents (entries.flatMap DirentWriter.record) =
        some (entries.map fun d => (d, DirentWriter.padding d)) ↔
      ∀ d ∈ entries, d.name.length < 2 ^ 32 := by
  constructor
  · -- What the walk finds has a name of `namelen` bytes at most.
    intro walked d member
    have each := walk_forall (P := fun found => found.1.name.length < 2 ^ 32)
      (fun _ _ _ read => readDirent_short read) _ _ _ walked
    exact each _ (List.mem_map_of_mem member)
  · intro short
    refine walk_flatMap _ _ entries ?_ (fun d member => readDirent_record d (short d member)) _
      (Nat.le_refl _)
    intro d empty
    have size := DirentWriter.length_record d
    have fits := DirentWriter.le_padded (FuseDirent.codec.size + d.name.length)
    have struct : FuseDirent.codec.size = 24 := rfl
    rw [empty, List.length_nil] at size
    omega

/-- Any exchange of calls packs the accepted entries, for the kernel to find them unless a
name is longer than `namelen` can say. -/
theorem fill_packs {α : Type} (buf : Bytes) (script : DirentScript α) :
    Packs buf (script.accepted { buf }) (script.fill { buf }).2 := by
  have start : ({ buf } : DirentWriter).Valid := Nat.zero_le _
  obtain ⟨length, valid⟩ := script.fill_valid { buf } start
  have aligned := script.fill_aligned { buf } (.inl rfl)
  refine ⟨length, valid, ?_, ?_, ?_, ?_⟩
  · rcases aligned with zero | ⟨whole, -⟩
    · rw [zero]
      exact Nat.dvd_zero 8
    · exact whole
  · rw [script.fill_records]
    exact walkDirents_records_iff _
  · exact fun d => DirentWriter.add_refuses_iff _ d valid
  · exact fun d refused => DirentWriter.add_refused _ d refused

/-- The records of the accepted entries are inside the buffer. -/
theorem DirentScript.accepted_inside {α : Type} (script : DirentScript α) (buf : Bytes) :
    ((script.accepted { buf }).flatMap DirentWriter.record).length ≤ buf.length := by
  rw [← script.fill_records buf, ← (fill_packs buf script).length, DirentWriter.written]
  exact List.length_take_le' ..

/-! ### READDIR -/

section Readdir

variable {σ : Type} (fs : Filesystem σ) (w : World σ) (h : FuseInHeader) (r : Replier)
  (req : FuseReadIn)

/-- The buffer READDIR lends to the daemon: so much of the reply area as the kernel asked
for. -/
def readdirBuf : Bytes := (w.mem .slot).read r.out (min req.size.toNat r.cap)

/-- The daemon's exchange with the writer. -/
def readdirScript : DirentScript (Except Errc Unit × σ) :=
  fs.readdir (makeCtx h) h.nodeid req.fh req.offset w.fs

/-- READDIR stores all of the buffer, then reports on the exchange. -/
theorem run_serveReaddir :
    let filled := (readdirScript fs w h req).fill { buf := readdirBuf w r req }
    run (World.step fs) (serveReaddir h r req) w = run (World.step fs)
      (withAnswer r filled.1.1 fun _ => pure { r with negErr := 0, len := filled.2.pos })
      (({ w with fs := filled.1.2 }).write .slot r.out filled.2.buf) := rfl

/-- A successful READDIR replies with the records of the accepted entries. -/
theorem serveReaddir_replies
    (success : ((readdirScript fs w h req).fill { buf := readdirBuf w r req }).1.1 = .ok ()) :
    let entries := (readdirScript fs w h req).accepted { buf := readdirBuf w r req }
    let done := run (World.step fs) (serveReaddir h r req) w
    done.1.negErr = 0 ∧
      (done.2.mem .slot).read r.out done.1.len = entries.flatMap DirentWriter.record := by
  intro entries done
  have start : ({ buf := readdirBuf w r req } : DirentWriter).Valid := Nat.zero_le _
  let filled := (readdirScript fs w h req).fill { buf := readdirBuf w r req }
  have inside : filled.2.pos ≤ filled.2.buf.length :=
    ((readdirScript fs w h req).fill_valid { buf := readdirBuf w r req } start).2
  have ran : done = ({ r with negErr := 0, len := filled.2.pos },
      ({ w with fs := filled.1.2 }).write .slot r.out filled.2.buf) := by
    simp only [done, run_serveReaddir, success]
    rfl
  rw [ran]
  refine ⟨rfl, ?_⟩
  dsimp only
  -- The reply is the written part of the buffer.
  rw [World.write_mem_same, ← Memory.take_read _ _ _ _ inside, Memory.read_write_same]
  exact (readdirScript fs w h req).fill_records _

/-- The daemon is left as the exchange leaves it. -/
theorem serveReaddir_fs :
    (run (World.step fs) (serveReaddir h r req) w).2.fs =
      ((readdirScript fs w h req).fill { buf := readdirBuf w r req }).1.2 := by
  rw [run_serveReaddir]
  -- Whether it succeeded or failed, replying does not reach the daemon.
  cases ((readdirScript fs w h req).fill { buf := readdirBuf w r req }).1.1 with
  | ok done => rfl
  | error e => rfl

end Readdir

/-! ### A name of 4 GiB -/

/-- An entry whose name has `n` bytes. -/
def longEntry (n : Nat) : Dirent := { name := List.replicate n 97, ino := 1, off := 1, type := 8 }

/-- One call that adds it. -/
def addLong (n : Nat) : DirentScript Bool := ask (longEntry n)

/-- A buffer with just the room for it. -/
def roomFor (n : Nat) : Bytes :=
  List.replicate (DirentWriter.padded (FuseDirent.codec.size + n)) 0

theorem addLong_accepted (n : Nat) :
    (addLong n).accepted { buf := roomFor n } = [longEntry n] := by
  have room : (({ buf := roomFor n } : DirentWriter).add (longEntry n)).1 = true := by
    have start : ({ buf := roomFor n } : DirentWriter).Valid := Nat.zero_le _
    rw [← Bool.not_eq_false, DirentWriter.add_refuses_iff _ _ start]
    simp [roomFor, longEntry]
  simp [DirentScript.accepted, addLong, ask, trace, room]

/-- The length of the name does not fit `namelen`: the kernel does not find the entry. -/
theorem long_name_lost :
    (addLong (2 ^ 32)).accepted { buf := roomFor (2 ^ 32) } = [longEntry (2 ^ 32)] ∧
      walkDirents ((addLong (2 ^ 32)).fill { buf := roomFor (2 ^ 32) }).2.written ≠
        some [(longEntry (2 ^ 32), DirentWriter.padding (longEntry (2 ^ 32)))] := by
  refine ⟨addLong_accepted _, ?_⟩
  intro walked
  rw [DirentScript.fill_records, addLong_accepted] at walked
  have short := (walkDirents_records_iff [longEntry (2 ^ 32)]).mp walked _
    (List.mem_singleton_self _)
  rw [longEntry, List.length_replicate] at short
  exact absurd short (Nat.lt_irrefl _)

end Fex
