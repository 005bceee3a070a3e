import Mathlib.Data.List.Infix
import Fex.Parsing

/-!
# The documented wire forms

`WireArgs` lists the arguments of the requests whose layout the handlers' comments
document, `WireArgs.encode` is that layout. For each parser one equivalence says
that it returns some arguments just when the body begins with their encoding; no
extensions are sent, so the arguments start at the head of the body.
-/
namespace Fex

open Foundation Program

/-- The arguments of a request. Struct fields no handler looks at are part of it, so
that an encoding may have any bytes there. -/
inductive WireArgs where
  | lookupx (name : Bytes)
  | unlink (name : Bytes)
  | rmdir (name : Bytes)
  | rename2 (req : FuseRename2In) (oldname newname : Bytes)
  | link (req : FuseLinkIn) (name : Bytes)
  | getxattr (req : FuseGetxattrIn) (name : Bytes)
  | setxattr (req : FuseSetxattrIn) (name value : Bytes)
  | removexattr (name : Bytes)
  | write (req : FuseWriteIn) (data : Bytes)
  | setstatx (req : FuseSetstatxIn)
  | mkobjx (req : FuseMkobjxIn) (name linkTarget : Bytes)

namespace WireArgs

def opcode : WireArgs → Opcode
  | lookupx _ => .lookupx
  | unlink _ => .unlink
  | rmdir _ => .rmdir
  | rename2 .. => .rename2
  | link .. => .link
  | getxattr .. => .getxattr
  | setxattr .. => .setxattr
  | removexattr _ => .removexattr
  | write .. => .write
  | setstatx _ => .setstatx
  | mkobjx .. => .mkobjx

/-- Names are NUL-free, size fields count what follows, and only a symlink has a
target. -/
def WellFormed : WireArgs → Prop
  | lookupx name | unlink name | rmdir name | removexattr name => (0 : UInt8) ∉ name
  | rename2 _ oldname newname => (0 : UInt8) ∉ oldname ∧ (0 : UInt8) ∉ newname
  | link _ name | getxattr _ name => (0 : UInt8) ∉ name
  | setxattr req name value => (0 : UInt8) ∉ name ∧ req.size.toNat = value.length
  | write req data => req.size.toNat = data.length
  | setstatx _ => True
  | mkobjx req name linkTarget =>
    (0 : UInt8) ∉ name ∧ (0 : UInt8) ∉ linkTarget ∧ req.namesize.toNat = name.length + 1 ∧
      (isSymlink req.stat.mode = false → linkTarget = [])

/-- The body of the request. -/
def encode : WireArgs → Bytes
  | lookupx name | unlink name | rmdir name | removexattr name => name ++ [0]
  | rename2 req oldname newname =>
    FuseRename2In.codec.enc req ++ (oldname ++ [0] ++ (newname ++ [0]))
  | link req name => FuseLinkIn.codec.enc req ++ (name ++ [0])
  | getxattr req name => FuseGetxattrIn.codec.enc req ++ (name ++ [0])
  | setxattr req name value => FuseSetxattrIn.codec.enc req ++ (name ++ [0] ++ value)
  | write req data => FuseWriteIn.codec.enc req ++ data
  | setstatx req => FuseSetstatxIn.codec.enc req
  | mkobjx req name linkTarget =>
    FuseMkobjxIn.codec.enc req ++
      (name ++ [0] ++ if isSymlink req.stat.mode then linkTarget ++ [0] else [])

/-- What decoding the body should give. -/
def request : WireArgs → Request
  | lookupx name => .lookupx name
  | unlink name => .unlink false name
  | rmdir name => .unlink true name
  | rename2 req oldname newname => .rename2 (req, oldname, newname)
  | link req name => .link (req, name)
  | getxattr req name => .getxattr (req, name)
  | setxattr req name value => .setxattr (req, name, value)
  | removexattr name => .removexattr name
  | write req data => .write (req, data)
  | setstatx req => .setstatx (req.fh, unpackStatx req.stat)
  | mkobjx req name linkTarget =>
    .mkobjx { stat := mkobjxStat req.stat, flags := req.flags, name, linkTarget }

end WireArgs

/-! ### Parsers and their encodings -/

section Parsers

variable {σ : Type} (fs : Filesystem σ) {w : World σ} {h : FuseInHeader} {body : Span} {bs : Bytes}
  (bytes : (w.mem .scratch).read body.base body.len = bs)

include bytes

theorem length_bytes : bs.length = body.len := by
  rw [← bytes, Memory.length_read]

/-- The name at offset `off`: a terminated string starts there. -/
theorem cString_iff (off : Nat) (inside : off ≤ body.len) (name : Bytes) :
    (run (World.step fs) (cString body off (body.len - off)) w).1 = some name ↔
      (0 : UInt8) ∉ name ∧ name ++ [0] <+: bs.drop off := by
  have tail : (w.mem .scratch).read (body.base + off) (body.len - off) = bs.drop off := by
    rw [← bytes, Memory.drop_read _ _ _ _ inside]
  have length : (bs.drop off).length = body.len - off := by
    rw [List.length_drop, length_bytes bytes]
  rw [run_cString, tail, ← length, ← beforeNul_eq_iff]
  split
  next whole => simp [whole]
  next short => simp only [Option.some.injEq, ne_eq, short, not_false_eq_true, true_and]

theorem parseName_iff (name : Bytes) :
    (run (World.step fs) (parseName body) w).1 = some name ↔
      (0 : UInt8) ∉ name ∧ name ++ [0] <+: bs := by
  have whole := cString_iff fs bytes 0 (Nat.zero_le _) name
  rw [Nat.sub_zero, List.drop_zero] at whole
  rw [← whole, parseName]
  split
  next empty =>
    -- Without any byte the string fails on its own.
    have zero : body.len = 0 := by omega
    rw [zero]
    rfl
  · rfl

variable (plain : extBytes h = 0)

include plain

theorem parseRemovexattr_iff (name : Bytes) :
    (run (World.step fs) (parseRemovexattr h body) w).1 = some name ↔
      (0 : UInt8) ∉ name ∧ name ++ [0] <+: bs := by
  have whole := cString_iff fs bytes 0 (Nat.zero_le _) name
  rw [parseRemovexattr, plain, sizeSub_of_le (Nat.zero_le _)]
  exact whole

omit plain in
/-- The struct at the head of the body. -/
theorem read_struct {size : Nat} (fits : size ≤ body.len) :
    (w.mem .scratch).read (body.base + 0) size = bs.take size := by
  rw [← bytes, Memory.take_read _ _ _ _ fits, Nat.add_zero]

omit plain in
theorem read_at {off n : Nat} (inside : off + n ≤ body.len) :
    (w.mem .scratch).read (body.base + off) n = (bs.drop off).take n := by
  rw [← bytes, Memory.read_slice _ _ _ _ _ inside]

theorem parseStructName_iff {α : Type} (codec : Codec α) (req : α) (name : Bytes) :
    (run (World.step fs) (parseStructName codec h body) w).1 = some (req, name) ↔
      (0 : UInt8) ∉ name ∧ codec.enc req ++ (name ++ [0]) <+: bs := by
  have length := length_bytes bytes
  rw [Codec.enc_append_prefix_iff, parseStructName, plain, Nat.zero_add]
  split
  next short =>
    -- The struct may fit, but then not even the NUL does.
    constructor
    · intro none
      cases none
    · rintro ⟨-, -, -, tail⟩
      have longer := tail.length_le
      simp only [List.length_append, List.length_singleton, List.length_drop] at longer
      omega
  next enough =>
    have fits : codec.size ≤ bs.length := by omega
    have scan (found : Bytes) := cString_iff fs bytes codec.size (by omega) found
    rw [sizeSub_of_le (by omega), run_bind, run_load, run_option_bind_iff]
    simp only [scan, run_cString_world, read_struct bytes (length ▸ fits), run_pure,
      Option.some.injEq, Prod.mk.injEq]
    constructor
    · rintro ⟨found, ⟨free, tail⟩, rfl, rfl⟩
      exact ⟨free, fits, rfl, tail⟩
    · rintro ⟨free, -, rfl, tail⟩
      exact ⟨name, ⟨free, tail⟩, rfl, rfl⟩
    · rfl

omit bytes plain in
/-- What is left behind the first name and its NUL. -/
theorem remain_eq {off : Nat} {name : Bytes} (length : bs.length = body.len)
    (first : name ++ [0] <+: bs.drop off) :
    off + name.length + 1 ≤ body.len ∧
      sizeSub (sizeSub (body.len - off) name.length) 1 = body.len - (off + name.length + 1) := by
  have long := first.length_le
  simp only [List.length_append, List.length_singleton, List.length_drop] at long
  rw [sizeSub_of_le (by omega : name.length ≤ body.len - off), sizeSub_of_le (by omega)]
  omega

/-- Two terminated names: the second starts behind the first one's NUL. -/
theorem parseRename2_iff (req : FuseRename2In) (oldname newname : Bytes) :
    (run (World.step fs) (parseRename2 h body) w).1 = some (req, oldname, newname) ↔
      ((0 : UInt8) ∉ oldname ∧ (0 : UInt8) ∉ newname) ∧
        FuseRename2In.codec.enc req ++ (oldname ++ [0] ++ (newname ++ [0])) <+: bs := by
  have length := length_bytes bytes
  rw [Codec.enc_append_prefix_iff, terminated_append_prefix_iff, List.drop_drop, parseRename2,
    plain, Nat.zero_add]
  split
  next short =>
    constructor
    · intro none
      cases none
    · rintro ⟨-, -, -, first, second⟩
      have longer := second.length_le
      have long := first.length_le
      simp only [List.length_append, List.length_singleton, List.length_drop] at long longer
      omega
  next enough =>
    have fits : FuseRename2In.codec.size ≤ bs.length := by omega
    have scan (found : Bytes) := cString_iff fs bytes FuseRename2In.codec.size (by omega) found
    rw [sizeSub_of_le (by omega), run_bind, run_load]
    dsimp only
    rw [run_option_bind_iff]
    · simp only [scan, run_cString_world, read_struct bytes (length ▸ fits)]
      constructor
      · rintro ⟨found, ⟨free, first⟩, rest⟩
        obtain ⟨inside, remain⟩ := remain_eq length first
        rw [remain] at rest
        obtain ⟨other, scanned, same⟩ :=
          (run_option_bind_iff (World.step fs) _ _ (by rfl) w _).mp rest
        obtain ⟨free', second⟩ := (cString_iff fs bytes _ inside other).mp scanned
        cases same
        exact ⟨⟨free, free'⟩, fits, rfl, first, second⟩
      · rintro ⟨⟨free, free'⟩, -, rfl, first, second⟩
        obtain ⟨inside, remain⟩ := remain_eq length first
        refine ⟨oldname, ⟨free, first⟩, ?_⟩
        have scanned := (cString_iff fs bytes _ inside newname).mpr ⟨free', second⟩
        rw [remain]
        exact (run_option_bind_iff (World.step fs) _ _ (by rfl) w _).mpr ⟨newname, scanned, rfl⟩
    · rfl

/-- The data behind the struct is as long as its size field says. -/
theorem parseWrite_iff (req : FuseWriteIn) (data : Bytes) :
    (run (World.step fs) (parseWrite h body) w).1 = some (req, data) ↔
      req.size.toNat = data.length ∧ FuseWriteIn.codec.enc req ++ data <+: bs := by
  have length := length_bytes bytes
  rw [Codec.enc_append_prefix_iff, parseWrite, plain, Nat.zero_add]
  split
  next short =>
    constructor
    · intro none
      cases none
    · rintro ⟨-, fits, -⟩
      omega
  next enough =>
    have fits : FuseWriteIn.codec.size ≤ bs.length := by omega
    rw [sizeSub_of_le (by omega), run_bind, run_load]
    dsimp only
    rw [read_struct bytes (length ▸ fits)]
    split
    next beyond =>
      constructor
      · intro none
        cases none
      · rintro ⟨size, -, rfl, tail⟩
        have longer := tail.length_le
        rw [List.length_drop] at longer
        omega
    next whole =>
      rw [run_bind, run_load, run_pure]
      dsimp only
      rw [read_at bytes (by omega), Option.some.injEq, Prod.mk.injEq,
        take_eq_iff_prefix (by rw [List.length_drop]; omega)]
      constructor
      · rintro ⟨rfl, size, tail⟩
        exact ⟨size, fits, rfl, tail⟩
      · rintro ⟨size, -, rfl, tail⟩
        exact ⟨rfl, size, tail⟩

omit plain in
/-- The value behind the NUL of `name`. -/
theorem setxattrValue_iff (after : Nat) (req req' : FuseSetxattrIn) (name name' value : Bytes)
    (inside : after ≤ body.len) :
    (run (World.step fs) (if body.len < after + req.size.toNat then pure none else do
      let value ← load .scratch body after req.size.toNat
      return some (req, name, value.1)) w).1 = some (req', name', value) ↔
        (req = req' ∧ name = name') ∧ req.size.toNat = value.length ∧ value <+: bs.drop after := by
  have length := length_bytes bytes
  split
  next beyond =>
    constructor
    · intro none
      cases none
    · rintro ⟨-, size, tail⟩
      have longer := tail.length_le
      rw [List.length_drop] at longer
      omega
  next whole =>
    rw [run_bind, run_load, run_pure]
    dsimp only
    rw [read_at bytes (by omega), ← take_eq_iff_prefix (by rw [List.length_drop]; omega),
      Option.some.injEq, Prod.mk.injEq, Prod.mk.injEq, and_assoc]

/-- A struct and a name, then a value as long as the size field says. -/
theorem parseSetxattr_iff (req : FuseSetxattrIn) (name value : Bytes) :
    (run (World.step fs) (parseSetxattr h body) w).1 = some (req, name, value) ↔
      ((0 : UInt8) ∉ name ∧ req.size.toNat = value.length) ∧
        FuseSetxattrIn.codec.enc req ++ (name ++ [0] ++ value) <+: bs := by
  have length := length_bytes bytes
  have world : (run (World.step fs) (parseStructName FuseSetxattrIn.codec h body) w).2 = w :=
    (parseStructName_reads FuseSetxattrIn.codec h (Nat.le_refl _)).run_state fs w
  rw [Codec.enc_append_prefix_iff, terminated_append_prefix_iff, List.drop_drop, parseSetxattr,
    run_option_bind_iff]
  · rw [world]
    dsimp only
    rw [plain, Nat.zero_add]
    constructor
    · rintro ⟨⟨found, other⟩, head, rest⟩
      obtain ⟨free, struct⟩ := (parseStructName_iff fs bytes plain _ found other).mp head
      obtain ⟨fits, dec, first⟩ := (Codec.enc_append_prefix_iff _ _ _ _).mp struct
      obtain ⟨inside, -⟩ := remain_eq length first
      obtain ⟨⟨rfl, rfl⟩, size, tail⟩ := (setxattrValue_iff fs bytes _ _ _ _ _ _ inside).mp rest
      exact ⟨⟨free, size⟩, fits, dec, first, tail⟩
    · rintro ⟨⟨free, size⟩, fits, dec, first, tail⟩
      obtain ⟨inside, -⟩ := remain_eq length first
      have struct := (Codec.enc_append_prefix_iff _ _ _ _).mpr ⟨fits, dec, first⟩
      exact ⟨(req, name), (parseStructName_iff fs bytes plain _ req name).mpr ⟨free, struct⟩,
        (setxattrValue_iff fs bytes _ _ _ _ _ _ inside).mpr ⟨⟨rfl, rfl⟩, size, tail⟩⟩
  · rfl

/-! SETSTATX and MKOBJX: the body need only begin with the encoding. -/

/-- The control header and `stat` lie back to back, as in the struct. -/
theorem parseSetstatx_enc (req : FuseSetstatxIn) (encoded : FuseSetstatxIn.codec.enc req <+: bs) :
    (run (World.step fs) (parseSetstatx h body) w).1 = some (req.fh, unpackStatx req.stat) := by
  have length := length_bytes bytes
  have fits := encoded.length_le
  rw [Codec.length_enc, length] at fits
  have whole := FuseSetstatxIn.codec_size
  have part := FuseStatx.codec_size
  have stat : FuseStatx.codec.enc req.stat <+:
      bs.drop (FuseSetstatxIn.codec.size - FuseStatx.codec.size) := by
    rw [← req.drop_enc]
    exact encoded.drop _
  rw [parseSetstatx, run_bind, run_inArg, plain, if_neg (by omega)]
  dsimp only
  rw [if_neg (by omega), run_bind, run_load, run_pure]
  dsimp only
  rw [read_struct bytes fits, read_at bytes (by omega), Codec.dec_take_of_prefix _ encoded,
    Codec.dec_take_of_prefix _ stat]

omit plain in
/-- A symlink's target is the terminated string behind the name. -/
theorem parseLinkBody_symlink {after : Nat} {mode : UInt16} {target : Bytes}
    (symlink : isSymlink mode = true) (free : (0 : UInt8) ∉ target)
    (there : target ++ [0] <+: bs.drop after) :
    (run (World.step fs) (parseLinkBody body after mode) w).1 = target := by
  have length := length_bytes bytes
  have long := there.length_le
  simp only [List.length_append, List.length_singleton, List.length_drop] at long
  obtain ⟨-, found⟩ := (beforeNul_eq_iff _ _).mpr ⟨free, there⟩
  have first : target <+: bs.drop after := (List.prefix_append _ _).trans there
  rw [parseLinkBody, if_pos ⟨symlink, by omega⟩, run_bind, run_strnlen]
  dsimp only
  rw [read_at bytes (by omega), List.take_of_length_le (by rw [List.length_drop]; omega), found,
    run_bind, run_load, run_pure]
  dsimp only
  rw [read_at bytes (by omega)]
  exact (List.prefix_iff_eq_take.mp first).symm

theorem parseMkobjx_enc (req : FuseMkobjxIn) (name target : Bytes)
    (wellFormed : (WireArgs.mkobjx req name target).WellFormed)
    (encoded : (WireArgs.mkobjx req name target).encode <+: bs) :
    (run (World.step fs) (parseMkobjx h body) w).1 =
      some { stat := mkobjxStat req.stat, flags := req.flags, name, linkTarget := target } := by
  obtain ⟨free, free', size, only⟩ := wellFormed
  have length := length_bytes bytes
  have whole := FuseMkobjxIn.codec_size
  have part := FuseStatx.codec_size
  -- The struct, the name behind it, and what follows the name.
  have struct : FuseMkobjxIn.codec.enc req <+: bs := (List.prefix_append _ _).trans encoded
  obtain ⟨fits, -, tail⟩ := (Codec.enc_append_prefix_iff _ _ _ _).mp encoded
  obtain ⟨terminated, behind⟩ := (terminated_append_prefix_iff _ _ _).mp tail
  have stat : FuseStatx.codec.enc req.stat <+:
      bs.drop (FuseMkobjxIn.codec.size - FuseStatx.codec.size) := by
    rw [← req.drop_enc]
    exact struct.drop _
  have named : name <+: bs.drop FuseMkobjxIn.codec.size :=
    (List.prefix_append _ _).trans terminated
  have long := terminated.length_le
  simp only [List.length_append, List.length_singleton, List.length_drop] at long
  have nonempty : req.namesize ≠ 0 := by
    rintro zero
    rw [zero] at size
    simp at size
  have nameLen : (if req.namesize = 0 then 0 else req.namesize.toNat - 1) = name.length := by
    rw [if_neg nonempty, size]
    rfl
  rw [parseMkobjx, plain, if_neg (by omega), run_bind, run_load]
  dsimp only
  rw [read_struct bytes (by omega), Codec.dec_take_of_prefix _ struct, run_bind, run_load]
  dsimp only
  rw [read_at bytes (by omega), Codec.dec_take_of_prefix _ stat, if_neg (by omega)]
  have offset : FuseMkobjxIn.codec.size - FuseStatx.codec.size + FuseStatx.codec.size =
      FuseMkobjxIn.codec.size := by omega
  have link : (run (World.step fs) (parseLinkBody body
      (FuseMkobjxIn.codec.size + (name.length + 1)) req.stat.mode) w).1 = target := by
    cases symlink : isSymlink req.stat.mode with
    | true =>
      rw [symlink, if_pos rfl, List.drop_drop] at behind
      exact parseLinkBody_symlink fs bytes symlink free' behind
    | false =>
      rw [parseLinkBody, if_neg (by simp [symlink])]
      exact (only symlink).symm
  rw [offset, nameLen, size, run_bind, run_load, run_bind, run_pure]
  dsimp only
  rw [read_at bytes (by omega), ← List.prefix_iff_eq_take.mp named, link]

end Parsers

end Fex
