import Fex.Compound
import Fex.Properties.RequestRoundTrip

/-!
# In-extensions between the header and the arguments

## Main result

`transparent_iff`: putting `k` words of extensions in front of the arguments, and saying
so in `total_extlen`, leaves the callbacks and the reply of a request as they were just
when `k` is 0 or the opcode's handler applies the offset to everything it reads. LOOKUPX,
UNLINK, RMDIR, BATCH_FORGET, SETSTATX, MKOBJX and COMPOUND do not.

## Proof strategy

A handler that skips the extensions performs the loads of the plain request, through
another span but at the same addresses: `RunsLike` for each primitive (`load_shift`,
`cString_shift`, `inArg_shift`) lifts to the parsers and to `decode_shift`. For each of the
others a body of one or two nonzero bytes, behind extensions that are all zero, is read
differently.
-/
namespace Fex

open Foundation Program

/-- The header that announces `k` words of extensions. -/
def FuseInHeader.extended (h : FuseInHeader) (k : UInt16) : FuseInHeader :=
  { h with totalExtlen := k }

/-- Whatever bytes they are, the `8 * k` bytes of extensions at `base` change neither the
callbacks nor the reply of the request whose `n` bytes of arguments lie behind them. -/
def Transparent (h : FuseInHeader) (k : UInt16) : Prop :=
  ∀ (σ : Type) (fs : Filesystem σ) (opts : SessionOptions) (r : Replier) (w : World σ)
    (base n : Nat),
    let extended := dispatch opts (h.extended k) ⟨base, 8 * k.toNat + n⟩ r
    let plain := dispatch opts (h.extended 0) ⟨base + 8 * k.toNat, n⟩ r
    callbacks (trace (World.step fs) extended w) = callbacks (trace (World.step fs) plain w) ∧
      run (World.step fs) extended w = run (World.step fs) plain w

/-- The handlers that apply the extension offset to every field, or read no arguments. -/
def Opcode.skipsExtensions : Opcode → Bool
  | .lookupx | .unlink | .rmdir | .batchForget | .setstatx | .mkobjx | .compound => false
  | _ => true

/-- The raw opcode is not one whose handler reads at a fixed offset. -/
def SkipsExtensions (opcode : UInt32) : Prop :=
  ∀ op, Opcode.ofCode opcode = some op → op.skipsExtensions = true

/-! ### The same loads through another span -/

section Shift

variable {σ : Type} (fs : Filesystem σ) {h plain : FuseInHeader} {d : Nat} (base n : Nat)

theorem load_shift (off len : Nat) :
    RunsLike (World.step fs) (load .scratch ⟨base, d + n⟩ (d + off) len)
      (load .scratch ⟨base + d, n⟩ off len) := by
  intro w
  simp only [run_load, Nat.add_assoc]

theorem cString_shift (off avail : Nat) :
    RunsLike (World.step fs) (cString ⟨base, d + n⟩ (d + off) avail)
      (cString ⟨base + d, n⟩ off avail) := by
  intro w
  simp only [run_cString, Nat.add_assoc]

variable (ext : extBytes h = d) (none : extBytes plain = 0)

include ext none

theorem inArg_shift {α : Type} (codec : Codec α) :
    RunsLike (World.step fs) (inArg codec h ⟨base, d + n⟩) (inArg codec plain ⟨base + d, n⟩) := by
  intro w
  simp only [run_inArg, ext, none, Nat.zero_add, Nat.add_zero, gt_iff_lt, Nat.add_lt_add_iff_left]

theorem parseStructName_shift {α : Type} (codec : Codec α) :
    RunsLike (World.step fs) (parseStructName codec h ⟨base, d + n⟩)
      (parseStructName codec plain ⟨base + d, n⟩) := by
  unfold parseStructName
  dsimp only
  rw [ext, none, Nat.zero_add]
  refine .ite (by omega) (fun _ => rfl) ?_
  intro long
  rw [sizeSub_of_le (by omega), sizeSub_of_le (by omega), Nat.add_sub_add_left]
  refine (load_shift fs base n 0 _).bind fun bytes => ?_
  exact (cString_shift fs base n _ _).bind fun name _ => rfl

theorem parseRename2_shift :
    RunsLike (World.step fs) (parseRename2 h ⟨base, d + n⟩)
      (parseRename2 plain ⟨base + d, n⟩) := by
  unfold parseRename2
  dsimp only
  rw [ext, none, Nat.zero_add]
  refine .ite (by omega) (fun _ => rfl) ?_
  intro long
  rw [sizeSub_of_le (by omega : _ ≤ d + n), sizeSub_of_le (by omega : _ ≤ n),
    Nat.add_sub_add_left]
  refine (load_shift fs base n 0 _).bind fun bytes => ?_
  refine (cString_shift fs base n _ _).bind fun first => ?_
  cases first with
  | none => exact fun _ => rfl
  | some oldname =>
    dsimp only
    rw [Nat.add_assoc d, Nat.add_assoc d]
    exact (cString_shift fs base n _ _).bind fun second _ => rfl

theorem parseWrite_shift :
    RunsLike (World.step fs) (parseWrite h ⟨base, d + n⟩) (parseWrite plain ⟨base + d, n⟩) := by
  unfold parseWrite
  dsimp only
  rw [ext, none, Nat.zero_add]
  refine .ite (by omega) (fun _ => rfl) ?_
  intro long
  rw [sizeSub_of_le (by omega), sizeSub_of_le (by omega), Nat.add_sub_add_left]
  refine (load_shift fs base n 0 _).bind fun bytes => ?_
  exact .ite Iff.rfl (fun _ => rfl) fun _ => (load_shift fs base n _ _).bind fun data _ => rfl

theorem parseSetxattr_shift :
    RunsLike (World.step fs) (parseSetxattr h ⟨base, d + n⟩)
      (parseSetxattr plain ⟨base + d, n⟩) := by
  refine (parseStructName_shift fs base n ext none FuseSetxattrIn.codec).bind fun args => ?_
  cases args with
  | none => exact fun _ => rfl
  | some args =>
    obtain ⟨req, name⟩ := args
    dsimp only
    rw [ext, none, Nat.zero_add, Nat.add_assoc d, Nat.add_assoc d, Nat.add_assoc d]
    refine .ite Nat.add_lt_add_iff_left (fun _ => rfl) ?_
    intro _
    exact (load_shift fs base n _ _).bind fun value _ => rfl

theorem parseRemovexattr_shift :
    RunsLike (World.step fs) (parseRemovexattr h ⟨base, d + n⟩)
      (parseRemovexattr plain ⟨base + d, n⟩) := by
  unfold parseRemovexattr
  rw [ext, none, sizeSub_of_le (Nat.le_add_right _ _), sizeSub_of_le (Nat.zero_le _),
    Nat.add_sub_cancel_left]
  exact cString_shift fs base n 0 n

end Shift

/-! ### Handlers that skip the extensions -/

section Sufficiency

variable {σ : Type} (fs : Filesystem σ) (opts : SessionOptions) {h : FuseInHeader} (k : UInt16)
  (base n : Nat)

theorem extBytes_extended (h : FuseInHeader) : extBytes (h.extended k) = 8 * k.toNat :=
  Nat.mul_comm _ _

theorem decode_shift (skips : SkipsExtensions h.opcode) :
    RunsLike (World.step fs) (decode (h.extended k) ⟨base, 8 * k.toNat + n⟩)
      (decode (h.extended 0) ⟨base + 8 * k.toNat, n⟩) := by
  have ext := extBytes_extended k h
  have none : extBytes (h.extended 0) = 0 := extBytes_extended 0 h
  have arg {α : Type} (codec : Codec α) := inArg_shift fs base n ext none codec
  unfold decode FuseInHeader.extended at *
  dsimp only at *
  cases is : Opcode.ofCode h.opcode with
  | none => exact fun _ => rfl
  | some op =>
    have skip := skips op is
    -- Each parser that skips the extensions has its shift lemma.
    cases op with
    | lookupx | unlink | rmdir | batchForget | setstatx | mkobjx | compound => cases skip
    | init => exact (arg _).bind fun _ _ => rfl
    | forget | statx | read | fallocate | openFile | release | releasedir | readdir | listxattr =>
      exact (arg _).map _
    | rename2 => exact (parseRename2_shift fs base n ext none).map _
    | link | getxattr => exact (parseStructName_shift fs base n ext none _).map _
    | write => exact (parseWrite_shift fs base n ext none).map _
    | setxattr => exact (parseSetxattr_shift fs base n ext none).map _
    | removexattr => exact (parseRemovexattr_shift fs base n ext none).map _
    | lookupRoot | readlink | statfs | opendir => exact fun _ => rfl

/-- Serving does not look at the extension length. -/
theorem respond_extended (r : Replier) (d : Decoded) :
    respond opts (h.extended k) r d = respond opts (h.extended 0) r d := by
  cases d with
  | accept q => cases q <;> rfl
  | reject e => rfl
  | ignore => rfl

theorem Decoded.callbacks_extended (r : Replier) (slot : Memory) (d : Decoded) :
    d.callbacks opts (h.extended k) r slot = d.callbacks opts (h.extended 0) r slot := by
  cases d with
  | accept q =>
    cases q with
    | unlink isRmdir name => cases isRmdir <;> rfl
    | _ => rfl
  | reject e => rfl
  | ignore => rfl

theorem transparent_of_skips (skips : SkipsExtensions h.opcode) : Transparent h k := by
  intro σ fs opts r w base n
  -- COMPOUND looks for its frames right behind the header, so it is not one of these.
  have leaf : h.opcode ≠ Opcode.compound.code := by
    intro compound
    exact absurd (skips _ ((Opcode.ofCode_eq_some_iff _ _).mpr compound)) (by decide)
  have decoded : decodeAt (w.mem .scratch) (h.extended k) ⟨base, 8 * k.toNat + n⟩ =
      decodeAt (w.mem .scratch) (h.extended 0) ⟨base + 8 * k.toNat, n⟩ :=
    congrArg Prod.fst (decode_shift _ k base n skips _)
  dsimp only
  rw [dispatch_leaf opts (h.extended k) _ r leaf, dispatch_leaf opts (h.extended 0) _ r leaf,
    callbacks_dispatchLeaf, callbacks_dispatchLeaf, run_dispatchLeaf, run_dispatchLeaf, decoded,
    respond_extended, Decoded.callbacks_extended]
  exact ⟨rfl, rfl⟩

end Sufficiency

/-! ### Handlers that do not

The arguments of a probe hold one byte 2 with no other before it. Where the handler looks
for that byte without skipping the extensions, it finds another one. -/

/-- Zeroed extensions of `d` bytes with the arguments `b` behind them. -/
def probe (d : Nat) (b : Bytes) : Memory := Memory.write (fun _ => 0) d b

theorem probe_ne {d i : Nat} {b : Bytes} (shifted : 0 < d) (earlier : ∀ c ∈ b.take i, c ≠ 2) :
    probe d b i ≠ 2 := by
  unfold probe Memory.write
  split
  next inside =>
    -- Inside the arguments, but `d` bytes before the one that holds the 2.
    have here : i - d < b.length := by omega
    have found : b.getD (i - d) 0 = b[i - d] := by
      simp only [List.getD_eq_getElem?_getD, List.getElem?_eq_getElem here, Option.getD_some]
    rw [found]
    exact earlier _ (List.mem_take_iff_getElem.mpr ⟨i - d, by omega, rfl⟩)
  · -- Everything outside the arguments is zero.
    exact (by decide : (0 : UInt8) ≠ 2)

/-- The bytes of a decoded number, found again by encoding it. -/
theorem read_of_dec {α : Type} {codec : Codec α} {m : Memory} {a : Nat} {v : α}
    (decoded : codec.dec (m.read a codec.size) = v) : m.read a codec.size = codec.enc v := by
  rw [← decoded, codec.enc_dec _ (Memory.length_read ..)]

section Necessity

variable {h : FuseInHeader} {k : UInt16}

theorem extension_pos (nonzero : k ≠ 0) : 0 < 8 * k.toNat := by
  have positive : 0 < k.toNat := Nat.pos_of_ne_zero fun zero => nonzero (UInt16.toNat_inj.mp zero)
  omega

/-- If the plain probe is a request, then so is the extended one, with the same callback. -/
theorem Transparent.probed (transparent : Transparent h k)
    (leaf : h.opcode ≠ Opcode.compound.code) {b : Bytes} {q : Request}
    (plain : decodeAt (probe (8 * k.toNat) b) (h.extended 0) ⟨8 * k.toNat, b.length⟩ = .accept q) :
    ∃ q' span span', decodeAt (probe (8 * k.toNat) b) (h.extended k) ⟨0, 8 * k.toNat + b.length⟩ =
        .accept q' ∧ q'.callback {} (h.extended k) span' = q.callback {} (h.extended 0) span := by
  have same := (transparent Unit (Filesystem.failing Errc.ioError) {} {}
    { mem := fun _ => probe (8 * k.toNat) b, initDone := false, fs := () } 0 b.length).1
  rw [dispatch_leaf {} (h.extended k) _ {} leaf, dispatch_leaf {} (h.extended 0) _ {} leaf,
    callbacks_dispatchLeaf, callbacks_dispatchLeaf, Nat.zero_add, plain] at same
  cases extended : decodeAt (probe (8 * k.toNat) b) (h.extended k) ⟨0, 8 * k.toNat + b.length⟩ with
  | accept q' =>
    rw [extended] at same
    exact ⟨q', _, _, rfl, List.singleton_inj.mp same⟩
  -- Without a callback the extended request differs from the plain one.
  | reject e =>
    rw [extended] at same
    cases same
  | ignore =>
    rw [extended] at same
    cases same

/-- The probe of encoded arguments is the encoded request. -/
theorem decodeAt_probe (a : WireArgs) (wellFormed : a.WellFormed) (d : Nat)
    (code : h.opcode = a.opcode.code) :
    decodeAt (probe d a.encode) (h.extended 0) ⟨d, a.encode.length⟩ = .accept a.request :=
  decode_encode _ (Memory.read_write_same ..) (extBytes_extended 0 h) a wellFormed code
    (List.prefix_refl _)

section Parsers

variable {σ : Type} (fs : Filesystem σ) {w : World σ} {body : Span}

/-- A name in the body starts with its first byte, extensions or not. -/
theorem parseName_head {c : UInt8} {name : Bytes}
    (parsed : (run (World.step fs) (parseName body) w).1 = some (c :: name)) :
    w.mem .scratch body.base = c := by
  obtain ⟨-, tail, split⟩ := (parseName_iff fs rfl _).mp parsed
  cases size : body.len with
  | zero =>
    rw [size] at split
    cases split
  | succ len =>
    rw [size, Memory.read] at split
    exact (List.cons.inj split).1.symm

/-- SETSTATX takes its attributes from a fixed offset. -/
theorem parseSetstatx_mask {args : FileHandle × SetStatxIn}
    (parsed : (run (World.step fs) (parseSetstatx h body) w).1 = some args) :
    args.2.mask = Codec.u32.dec ((w.mem .scratch).read (body.base + 16) Codec.u32.size) := by
  rw [parseSetstatx, run_bind, run_inArg] at parsed
  split at parsed
  · cases parsed
  · dsimp only at parsed
    split at parsed
    · cases parsed
    · cases parsed
      have word := (w.mem .scratch).take_read (body.base + 16) FuseStatx.codec.size Codec.u32.size
        (by decide)
      rw [← word]
      rfl

/-- So does MKOBJX. -/
theorem parseMkobjx_mask {obj : MkobjxIn}
    (parsed : (run (World.step fs) (parseMkobjx h body) w).1 = some obj) :
    obj.stat.mask = Codec.u32.dec ((w.mem .scratch).read (body.base + 64) Codec.u32.size) := by
  rw [parseMkobjx] at parsed
  dsimp only at parsed
  split at parsed
  · cases parsed
  · rw [run_bind, run_load, run_bind, run_load] at parsed
    dsimp only at parsed
    split at parsed
    · cases parsed
    · rw [run_bind, run_load, run_bind] at parsed
      cases parsed
      have word := (w.mem .scratch).take_read (body.base + 64) FuseStatx.codec.size Codec.u32.size
        (by decide)
      rw [← word]
      rfl

/-- And BATCH_FORGET its items. -/
theorem parseBatch_head {count : Nat} {item : NodeId × UInt64} {rest : List (NodeId × UInt64)}
    (parsed : (run (World.step fs) (parseBatch body count) w).1 = some (item :: rest)) :
    item.2 = Codec.u64.dec ((w.mem .scratch).read (body.base + 16) Codec.u64.size) := by
  rw [parseBatch] at parsed
  split at parsed
  · cases parsed
  · cases count with
    | zero => cases parsed
    | succ count =>
      rw [run_bind, forgetItems, run_bind, run_load, run_bind] at parsed
      obtain ⟨head, -⟩ := List.cons.inj (Option.some.inj parsed)
      have word := (w.mem .scratch).read_slice (body.base + 8) FuseForgetOne.codec.size 8
        Codec.u64.size (by decide)
      rw [← head, ← Nat.add_assoc body.base 8 8, word]
      rfl

end Parsers

/-- The common form of the arguments below: the plain probe is the request `q`, and no
request that the extended probe can decode to has its callback, since that would take a 2
at address `i`. -/
theorem not_transparent (nonzero : k ≠ 0) (leaf : h.opcode ≠ Opcode.compound.code) {b : Bytes}
    {q : Request} {i : Nat} (earlier : (b.take i).all (· != 2) = true)
    (plain : decodeAt (probe (8 * k.toNat) b) (h.extended 0) ⟨8 * k.toNat, b.length⟩ = .accept q)
    (differs : ∀ m body q' span span', decodeAt m (h.extended k) body = .accept q' →
      q'.callback {} (h.extended k) span' = q.callback {} (h.extended 0) span →
      m (body.base + i) = 2) :
    ¬Transparent h k := by
  -- The extended probe leads to the same callback, so its byte 2 is found at `i` too.
  intro transparent
  obtain ⟨q', span, span', accepts, same⟩ := transparent.probed leaf plain
  have found := differs _ _ _ _ _ accepts same
  rw [Nat.zero_add] at found
  refine probe_ne (extension_pos nonzero) ?_ found
  exact fun c member => bne_iff_ne.mp (List.all_eq_true.mp earlier c member)

/-- A request that is a name and nothing else. -/
theorem name_not_transparent (nonzero : k ≠ 0) (leaf : h.opcode ≠ Opcode.compound.code)
    (make : Bytes → Request)
    (decodes : ∀ k body, decode (h.extended k) body = Decoded.ofArgs make <$> parseName body)
    (injective : ∀ name span span',
      (make name).callback {} (h.extended k) span' = (make [2]).callback {} (h.extended 0) span →
      name = [2]) : ¬Transparent h k := by
  refine not_transparent nonzero leaf (b := [2, 0]) (q := make [2]) (i := 0) (by decide) ?_ ?_
  · rw [decodeAt, decodes]
    refine ofArgs_accept _ make ((parseName_iff _ rfl _).mpr ⟨by decide, ?_⟩)
    exact (Memory.read_write_same ..).symm ▸ List.prefix_refl _
  · intro m body q' span span' accepts same
    rw [decodeAt, decodes] at accepts
    obtain ⟨name, parsed, rfl⟩ := parsed_of_accept _ _ accepts
    rw [injective name _ _ same] at parsed
    exact parseName_head _ parsed

theorem lookupx_not_transparent (nonzero : k ≠ 0) (code : h.opcode = Opcode.lookupx.code) :
    ¬Transparent h k := by
  have opcode := (Opcode.ofCode_eq_some_iff _ _).mpr code
  refine name_not_transparent nonzero (by rw [code]; decide) .lookupx ?_ ?_
  · intro k body
    rw [decode, FuseInHeader.extended, opcode]
  · intro name span span' same
    cases same
    rfl

theorem unlink_not_transparent (nonzero : k ≠ 0) (isRmdir : Bool)
    (code : h.opcode = (if isRmdir then Opcode.rmdir else .unlink).code) : ¬Transparent h k := by
  have opcode := (Opcode.ofCode_eq_some_iff _ _).mpr code
  refine name_not_transparent nonzero (by rw [code]; cases isRmdir <;> decide) (.unlink isRmdir)
    ?_ ?_
  · intro k body
    rw [decode, FuseInHeader.extended, opcode]
    cases isRmdir <;> rfl
  · intro name span span' same
    cases isRmdir <;> cases same <;> rfl

/-- The mask of the attributes a callback is given. -/
def Callback.mask : Callback → UInt32
  | .setstatx _ _ _ attrs => attrs.mask
  | .mkobjx _ _ obj => obj.stat.mask
  | _ => 0

theorem setstatx_not_transparent (nonzero : k ≠ 0) (code : h.opcode = Opcode.setstatx.code) :
    ¬Transparent h k := by
  have opcode := (Opcode.ofCode_eq_some_iff _ _).mpr code
  refine not_transparent nonzero (by rw [code]; decide) (i := 16) (by decide)
    (decodeAt_probe (.setstatx { stat := { mask := 2 } }) trivial _ code) ?_
  intro m body q' span span' accepts same
  rw [decodeAt, decode, FuseInHeader.extended, opcode] at accepts
  obtain ⟨args, parsed, rfl⟩ := parsed_of_accept _ _ accepts
  have mask := parseSetstatx_mask _ parsed
  have two : args.2.mask = 2 := congrArg Callback.mask same
  have word := read_of_dec (mask.symm.trans two)
  exact (List.cons.inj word).1

theorem mkobjx_not_transparent (nonzero : k ≠ 0) (code : h.opcode = Opcode.mkobjx.code) :
    ¬Transparent h k := by
  have opcode := (Opcode.ofCode_eq_some_iff _ _).mpr code
  refine not_transparent nonzero (by rw [code]; decide) (i := 64) (by decide)
    (decodeAt_probe (.mkobjx { namesize := 1, stat := { mask := 2 } } [] [])
      ⟨by decide, by decide, rfl, fun _ => rfl⟩ _ code) ?_
  intro m body q' span span' accepts same
  rw [decodeAt, decode, FuseInHeader.extended, opcode] at accepts
  obtain ⟨obj, parsed, rfl⟩ := parsed_of_accept _ _ accepts
  have mask := parseMkobjx_mask _ parsed
  have two : obj.stat.mask = 2 := congrArg Callback.mask same
  have word := read_of_dec (mask.symm.trans two)
  exact (List.cons.inj word).1

/-- One node to forget, two lookups of it. -/
def batchProbe : Bytes :=
  FuseBatchForgetIn.codec.enc { count := 1 } ++
    FuseForgetOne.codec.enc { nodeid := 0, nlookup := 2 }

theorem decodeAt_batchProbe (d : Nat) (code : h.opcode = Opcode.batchForget.code) :
    decodeAt (probe d batchProbe) (h.extended 0) ⟨d, batchProbe.length⟩ =
      .accept (.batchForget [(0, 2)]) := by
  have bytes : (probe d batchProbe).read d batchProbe.length = batchProbe :=
    Memory.read_write_same ..
  have counter : (probe d batchProbe).read d FuseBatchForgetIn.codec.size =
      FuseBatchForgetIn.codec.enc { count := 1 } := by
    rw [← Memory.take_read _ _ batchProbe.length _ (by decide), bytes]
    rfl
  have item : FuseForgetOne.codec.dec ((probe d batchProbe).read
      (d + FuseBatchForgetIn.codec.size) FuseForgetOne.codec.size) =
        { nodeid := 0, nlookup := 2 } := by
    rw [Memory.read_slice _ _ batchProbe.length _ _ (by decide), bytes]
    exact FuseForgetOne.codec.dec_enc _
  have none : extBytes (h.extended 0) = 0 := extBytes_extended 0 h
  have whole : ¬0 + FuseBatchForgetIn.codec.size > batchProbe.length := by decide
  have fits : ¬batchProbe.length < FuseBatchForgetIn.codec.size +
      (1 : UInt32).toNat * FuseForgetOne.codec.size := by decide
  rw [decodeAt, decode, show (h.extended 0).opcode = h.opcode from rfl,
    (Opcode.ofCode_eq_some_iff _ _).mpr code]
  dsimp only
  rw [run_bind, run_inArg, none, if_neg whole, Nat.add_zero, counter, Codec.dec_enc]
  dsimp only
  rw [run_bind, parseBatch, if_neg fits, run_bind, UInt32.toNat_one, forgetItems, run_bind,
    run_load]
  exact congrArg (fun one : FuseForgetOne => Decoded.accept
    (.batchForget [(one.nodeid, one.nlookup)])) item

theorem batchForget_not_transparent (nonzero : k ≠ 0)
    (code : h.opcode = Opcode.batchForget.code) : ¬Transparent h k := by
  have opcode := (Opcode.ofCode_eq_some_iff _ _).mpr code
  refine not_transparent nonzero (by rw [code]; decide) (i := 16) (by decide)
    (decodeAt_batchProbe _ code) ?_
  intro m body q' span span' accepts same
  rw [decodeAt, decode, FuseInHeader.extended, opcode] at accepts
  dsimp only at accepts
  rw [run_bind, run_inArg] at accepts
  split at accepts
  · cases accepts
  · dsimp only at accepts
    rw [run_bind] at accepts
    split at accepts
    · cases accepts
    next items parsed =>
      cases accepts
      cases same
      have lookups := parseBatch_head _ parsed
      exact (List.cons.inj (read_of_dec lookups.symm)).1

/-- Reply space for the compound header only: anything behind the request's own header is
a frame with no room for its out-header. -/
theorem handleCompound_cramped {σ : Type} (fs : Filesystem σ) (w : World σ) (body : Span)
    (behind : 16 < body.len) :
    (run (World.step fs) (handleCompound (dispatchLeaf {}) h body { cap := 16 }) w).1.negErr =
      -22 := by
  have large : ¬(body.len < FuseCompoundIn.codec.size ∨ 16 < FuseCompoundOut.codec.size) := by
    rw [not_or]
    exact ⟨fun small => absurd behind (Nat.not_lt.mpr (Nat.le_of_lt small)), by decide⟩
  have cramped : 16 + FuseOutHeader.codec.size > 16 := by decide
  rw [handleCompound, if_neg large, run_bind]
  obtain ⟨fuel, size⟩ : ∃ fuel, body.len = fuel + 1 := ⟨body.len - 1, by omega⟩
  have stopped (w : World σ) := (compoundLoop_stop fs (dispatchLeaf {}) { cap := 16 }
    fuel (c := ⟨16, [], w⟩) behind (.inr cramped)).1
  rw [← size] at stopped
  exact congrArg (fun out => out.1.negErr) (stopped _)

/-- A compound without frames succeeds; its extensions are taken for a frame. -/
theorem compound_not_transparent (nonzero : k ≠ 0) (code : h.opcode = Opcode.compound.code) :
    ¬Transparent h k := by
  intro transparent
  have positive := extension_pos nonzero
  have same := (transparent Unit (Filesystem.failing Errc.ioError) {} { cap := 16 }
    { mem := fun _ _ => 0, initDone := false, fs := () } 0 16).2
  rw [dispatch_compound {} (h.extended k) _ _ code,
    dispatch_compound {} (h.extended 0) _ _ code] at same
  have failed := handleCompound_cramped (h := h.extended k) (Filesystem.failing Errc.ioError)
    { mem := fun _ _ => 0, initDone := false, fs := () } ⟨0, 8 * k.toNat + 16⟩
    (by dsimp only; omega)
  rw [same] at failed
  have succeeded : (0 : Int32) = -22 := failed
  exact absurd succeeded (by decide)

end Necessity

/-- Extensions are invisible to a request just when there are none or its handler skips
them wherever it reads. -/
theorem transparent_iff (h : FuseInHeader) (k : UInt16) :
    Transparent h k ↔ k = 0 ∨ SkipsExtensions h.opcode := by
  constructor
  · intro transparent
    by_cases nonzero : k = 0
    · exact .inl nonzero
    refine .inr fun op is => ?_
    have code := (Opcode.ofCode_eq_some_iff _ _).mp is
    cases op with
    | lookupx => exact absurd transparent (lookupx_not_transparent nonzero code)
    | unlink => exact absurd transparent (unlink_not_transparent nonzero false code)
    | rmdir => exact absurd transparent (unlink_not_transparent nonzero true code)
    | batchForget => exact absurd transparent (batchForget_not_transparent nonzero code)
    | setstatx => exact absurd transparent (setstatx_not_transparent nonzero code)
    | mkobjx => exact absurd transparent (mkobjx_not_transparent nonzero code)
    | compound => exact absurd transparent (compound_not_transparent nonzero code)
    | _ => rfl
  · rintro (rfl | skips)
    · intro σ fs opts r w base n
      dsimp only
      rw [show 8 * (0 : UInt16).toNat = 0 from rfl, Nat.zero_add, Nat.add_zero]
      exact ⟨rfl, rfl⟩
    · exact transparent_of_skips k skips

/-- One word of zeroed extensions in front of the name "a". -/
def extendedLookup : World Unit :=
  { mem := fun _ => probe 8 [97, 0], initDone := false, fs := () }

def lookupInRoot : FuseInHeader := { opcode := Opcode.lookupx.code, nodeid := 1 }

theorem callbacks_lookupInRoot (k : UInt16) (body : Span) (name : Bytes)
    (decoded : decodeAt (probe 8 [97, 0]) (lookupInRoot.extended k) body =
      .accept (.lookupx name)) :
    callbacks (trace (World.step (Filesystem.failing Errc.ioError))
      (dispatch {} (lookupInRoot.extended k) body {}) extendedLookup) =
        [.lookupx { nodeid := 1 } 1 name] := by
  have leaf : lookupInRoot.opcode ≠ Opcode.compound.code := by decide
  rw [dispatch_leaf {} (lookupInRoot.extended k) body {} leaf, callbacks_dispatchLeaf,
    extendedLookup, decoded]
  rfl

/-- LOOKUPX of "a" behind one word of extensions asks for the empty name. -/
theorem lookupx_reads_extensions :
    callbacks (trace (World.step (Filesystem.failing Errc.ioError))
        (dispatch {} (lookupInRoot.extended 1) ⟨0, 10⟩ {}) extendedLookup) =
          [.lookupx { nodeid := 1 } 1 []] ∧
      callbacks (trace (World.step (Filesystem.failing Errc.ioError))
        (dispatch {} (lookupInRoot.extended 0) ⟨8, 2⟩ {}) extendedLookup) =
          [.lookupx { nodeid := 1 } 1 [97]] ∧
      ¬Transparent lookupInRoot 1 := by
  have extended := callbacks_lookupInRoot 1 ⟨0, 10⟩ [] rfl
  have plain := callbacks_lookupInRoot 0 ⟨8, 2⟩ [97]
    (decodeAt_probe (.lookupx [97]) (by simp [WireArgs.WellFormed]) 8 rfl)
  refine ⟨extended, plain, ?_⟩
  intro transparent
  have same := (transparent Unit (Filesystem.failing Errc.ioError) {} {} extendedLookup 0 2).1
  cases extended.symm.trans (same.trans plain)

end Fex
