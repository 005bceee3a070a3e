import Fex.Grammar
import Fex.Serving

/-!
# Decoding undoes encoding

## Main result

`dispatch_decodes_wire`: a body in the documented wire form makes the matching
callback, once, with the arguments that were encoded; and for the requests whose
grammar is decided by the body alone, a callback is made just when the body begins
with such an encoding, the reply being EINVAL otherwise.

## Proof strategy

`decode_encode` and `decode_grammar` lift the equivalences of `Fex.Grammar` from
the parsers to decoding; what follows decoding is one callback or the error reply.
-/
namespace Fex

open Foundation Program

/-- The caller as the header describes it. -/
def callerOf (h : FuseInHeader) : Context :=
  { uid := h.uid, gid := h.gid, pid := h.pid, nodeid := h.nodeid, unique := h.unique }

def attrTime (t : FuseSxTime) : Timespec := { sec := t.tvSec, nsec := t.tvNsec }

/-- The callback the arguments stand for; `span` is the part of the reply area that
GETXATTR may fill. -/
def WireArgs.callback (h : FuseInHeader) (span : Bytes) : WireArgs → Callback
  | lookupx name => .lookupx (callerOf h) h.nodeid name
  | unlink name => .unlink (callerOf h) h.nodeid name
  | rmdir name => .rmdir (callerOf h) h.nodeid name
  | rename2 req oldname newname =>
    .rename (callerOf h) h.nodeid oldname req.newdir newname req.flags
  | link req name => .link (callerOf h) req.oldnodeid h.nodeid name
  | getxattr _ name => .getxattr (callerOf h) h.nodeid name span
  | setxattr req name value => .setxattr (callerOf h) h.nodeid name value req.flags
  | removexattr name => .removexattr (callerOf h) h.nodeid name
  | write req data => .write (callerOf h) h.nodeid req.fh req.offset data
  | setstatx req => .setstatx (callerOf h) h.nodeid req.fh
    { mask := req.stat.mask, mode := req.stat.mode, uid := req.stat.uid, gid := req.stat.gid
      size := req.stat.size, atime := attrTime req.stat.atime, ctime := attrTime req.stat.ctime
      mtime := attrTime req.stat.mtime }
  | mkobjx req name linkTarget => .mkobjx (callerOf h) h.nodeid
    { flags := req.flags
      name := name
      linkTarget := linkTarget
      stat :=
        { mode := req.stat.mode, uid := req.stat.uid, gid := req.stat.gid
          rdevMajor := req.stat.rdevMajor, rdevMinor := req.stat.rdevMinor, mask := req.stat.mask
          atime := attrTime req.stat.atime, btime := attrTime req.stat.btime
          ctime := attrTime req.stat.ctime, mtime := attrTime req.stat.mtime } }

/-- How much of the reply area GETXATTR may fill; a size query gets an empty span. -/
def WireArgs.span (cap : Nat) : WireArgs → Nat
  | getxattr req _ => if req.size = 0 then 0 else min req.size.toNat cap
  | _ => 0

/-- The opcodes whose arguments the body alone determines. -/
def grammarOpcodes : List Opcode :=
  [.lookupx, .unlink, .rmdir, .rename2, .link, .getxattr, .setxattr, .removexattr, .write]

/-- The body begins with the wire form of some arguments of the opcode. -/
def BeginsWithArgs (op : Opcode) (bytes : Bytes) : Prop :=
  ∃ a : WireArgs, a.opcode = op ∧ a.WellFormed ∧ a.encode <+: bytes

theorem WireArgs.request_callback (opts : SessionOptions) (h : FuseInHeader) (span : Bytes)
    (a : WireArgs) : a.request.callback opts h span = a.callback h span := by
  cases a <;> rfl

theorem WireArgs.request_lent (cap : Nat) (a : WireArgs) : a.request.lent cap = a.span cap := by
  cases a <;> rfl

/-! ### Decoding -/

section Decoding

variable {σ : Type} (fs : Filesystem σ) {w : World σ} {h : FuseInHeader} {body : Span}
  {bs : Bytes} (bytes : (w.mem .scratch).read body.base body.len = bs) (plain : extBytes h = 0)

theorem ofArgs_accept {α : Type} {parse : Handler (Option α)} {args : α} (make : α → Request)
    (parsed : (run (World.step fs) parse w).1 = some args) :
    (run (World.step fs) (Decoded.ofArgs make <$> parse) w).1 = .accept (make args) := by
  rw [run_map, parsed]
  rfl

/-- Arguments that parse, or the EINVAL reply. -/
theorem ofArgs_cases {α : Type} {parse : Handler (Option α)} {P : Prop} (make : α → Request)
    (parsed : ∀ args, (run (World.step fs) parse w).1 = some args → P) :
    P ∨ (run (World.step fs) (Decoded.ofArgs make <$> parse) w).1 =
      .reject Errc.invalidArgument := by
  rw [run_map]
  cases found : (run (World.step fs) parse w).1 with
  | none => exact .inr rfl
  | some args => exact .inl (parsed args found)

include bytes plain

/-- A body that begins with an encoding decodes to the encoded request. -/
theorem decode_encode (a : WireArgs) (wellFormed : a.WellFormed)
    (code : h.opcode = a.opcode.code) (encoded : a.encode <+: bs) :
    (run (World.step fs) (decode h body) w).1 = .accept a.request := by
  have opcode := (Opcode.ofCode_eq_some_iff _ _).mpr code
  rw [decode, opcode]
  -- Each parser has its lemma that says on which bodies it returns these arguments.
  cases a with
  | lookupx name | unlink name | rmdir name =>
    apply ofArgs_accept
    exact (parseName_iff fs bytes name).mpr ⟨wellFormed, encoded⟩
  | rename2 req oldname newname =>
    apply ofArgs_accept fs Request.rename2
    exact (parseRename2_iff fs bytes plain req oldname newname).mpr ⟨wellFormed, encoded⟩
  | link req name =>
    apply ofArgs_accept fs Request.link
    exact (parseStructName_iff fs bytes plain _ req name).mpr ⟨wellFormed, encoded⟩
  | getxattr req name =>
    apply ofArgs_accept fs Request.getxattr
    exact (parseStructName_iff fs bytes plain _ req name).mpr ⟨wellFormed, encoded⟩
  | setxattr req name value =>
    apply ofArgs_accept fs Request.setxattr
    exact (parseSetxattr_iff fs bytes plain req name value).mpr ⟨wellFormed, encoded⟩
  | removexattr name =>
    apply ofArgs_accept
    exact (parseRemovexattr_iff fs bytes plain name).mpr ⟨wellFormed, encoded⟩
  | write req data =>
    apply ofArgs_accept fs Request.write
    exact (parseWrite_iff fs bytes plain req data).mpr ⟨wellFormed, encoded⟩
  | setstatx req =>
    apply ofArgs_accept fs Request.setstatx
    exact parseSetstatx_enc fs bytes plain req encoded
  | mkobjx req name target =>
    apply ofArgs_accept fs Request.mkobjx
    exact parseMkobjx_enc fs bytes plain req name target wellFormed encoded

/-- Where the grammar is decided by the body alone, what is not EINVAL was encoded. -/
theorem decode_grammar (op : Opcode) (among : op ∈ grammarOpcodes) (code : h.opcode = op.code) :
    BeginsWithArgs op bs ∨
      (run (World.step fs) (decode h body) w).1 = .reject Errc.invalidArgument := by
  have opcode := (Opcode.ofCode_eq_some_iff _ _).mpr code
  rw [decode, opcode]
  cases op
  case lookupx =>
    apply ofArgs_cases
    intro name parsed
    exact ⟨.lookupx name, rfl, (parseName_iff fs bytes name).mp parsed⟩
  case unlink =>
    apply ofArgs_cases
    intro name parsed
    exact ⟨.unlink name, rfl, (parseName_iff fs bytes name).mp parsed⟩
  case rmdir =>
    apply ofArgs_cases
    intro name parsed
    exact ⟨.rmdir name, rfl, (parseName_iff fs bytes name).mp parsed⟩
  case rename2 =>
    apply ofArgs_cases
    rintro ⟨req, oldname, newname⟩ parsed
    exact ⟨.rename2 req oldname newname, rfl,
      (parseRename2_iff fs bytes plain req oldname newname).mp parsed⟩
  case link =>
    apply ofArgs_cases
    rintro ⟨req, name⟩ parsed
    exact ⟨.link req name, rfl, (parseStructName_iff fs bytes plain _ req name).mp parsed⟩
  case getxattr =>
    apply ofArgs_cases
    rintro ⟨req, name⟩ parsed
    exact ⟨.getxattr req name, rfl, (parseStructName_iff fs bytes plain _ req name).mp parsed⟩
  case setxattr =>
    apply ofArgs_cases
    rintro ⟨req, name, value⟩ parsed
    exact ⟨.setxattr req name value, rfl,
      (parseSetxattr_iff fs bytes plain req name value).mp parsed⟩
  case removexattr =>
    apply ofArgs_cases
    intro name parsed
    exact ⟨.removexattr name, rfl, (parseRemovexattr_iff fs bytes plain name).mp parsed⟩
  case write =>
    apply ofArgs_cases
    rintro ⟨req, data⟩ parsed
    exact ⟨.write req data, rfl, (parseWrite_iff fs bytes plain req data).mp parsed⟩
  all_goals simp [grammarOpcodes] at among

end Decoding

/-! ### Dispatch -/

theorem WireArgs.opcode_ne_compound (a : WireArgs) : a.opcode.code ≠ Opcode.compound.code := by
  cases a with
  | _ =>
    dsimp only [opcode]
    decide

theorem grammarOpcodes_ne_compound :
    ∀ op ∈ grammarOpcodes, op.code ≠ Opcode.compound.code := by decide

section Dispatch

variable {σ : Type} (fs : Filesystem σ) (opts : SessionOptions) (h : FuseInHeader) (body : Span)
  (r : Replier) (w : World σ) (plain : h.totalExtlen = 0)

include plain

/-- A body that begins with an encoding makes the encoded callback. -/
theorem callbacks_encoded (a : WireArgs) (wellFormed : a.WellFormed)
    (code : h.opcode = a.opcode.code)
    (encoded : a.encode <+: (w.mem .scratch).read body.base body.len) :
    callbacks (trace (World.step fs) (dispatch opts h body r) w) =
      [a.callback h ((w.mem .slot).read r.out (a.span r.cap))] := by
  have none : extBytes h = 0 := by rw [extBytes, plain]; rfl
  have decoded := decode_encode fs rfl none a wellFormed code encoded
  rw [run_decode] at decoded
  rw [dispatch_leaf _ _ _ _ (code ▸ a.opcode_ne_compound), callbacks_dispatchLeaf]
  dsimp only at decoded
  rw [decoded, Decoded.callbacks, a.request_lent, a.request_callback]

/-- Decoding undoes encoding, and accepts just the documented grammar. -/
theorem dispatch_decodes_wire :
    (∀ a : WireArgs, a.WellFormed → h.opcode = a.opcode.code →
      (w.mem .scratch).read body.base body.len = a.encode →
        callbacks (trace (World.step fs) (dispatch opts h body r) w) =
          [a.callback h ((w.mem .slot).read r.out (a.span r.cap))]) ∧
    ∀ op ∈ grammarOpcodes, h.opcode = op.code →
      (callbacks (trace (World.step fs) (dispatch opts h body r) w) ≠ [] ↔
        BeginsWithArgs op ((w.mem .scratch).read body.base body.len)) ∧
      (¬BeginsWithArgs op ((w.mem .scratch).read body.base body.len) →
        callbacks (trace (World.step fs) (dispatch opts h body r) w) = [] ∧
        (run (World.step fs) (dispatch opts h body r) w).1 =
          { r with negErr := negErrno Errc.invalidArgument, len := 0 }) := by
  constructor
  · intro a wellFormed code encoded
    exact callbacks_encoded fs opts h body r w plain a wellFormed code
      (encoded ▸ List.prefix_refl _)
  · intro op among code
    have none : extBytes h = 0 := by rw [extBytes, plain]; rfl
    have rejected (bad : ¬BeginsWithArgs op ((w.mem .scratch).read body.base body.len)) :
        callbacks (trace (World.step fs) (dispatch opts h body r) w) = [] ∧
        (run (World.step fs) (dispatch opts h body r) w).1 =
          { r with negErr := negErrno Errc.invalidArgument, len := 0 } := by
      have decoded := (decode_grammar fs rfl none op among code).resolve_left bad
      rw [run_decode] at decoded
      dsimp only at decoded
      rw [dispatch_leaf _ _ _ _ (code ▸ grammarOpcodes_ne_compound op among),
        callbacks_dispatchLeaf, run_dispatchLeaf, decoded]
      exact ⟨rfl, rfl⟩
    refine ⟨⟨?_, ?_⟩, rejected⟩
    · intro called
      by_contra bad
      exact called (rejected bad).1
    · rintro ⟨a, rfl, wellFormed, encoded⟩
      rw [callbacks_encoded fs opts h body r w plain a wellFormed code encoded]
      exact List.cons_ne_nil _ _

end Dispatch

/-- LOOKUPX of "a" in the directory 7. -/
def lookupOfAIn7 : FuseInHeader :=
  { opcode := Opcode.lookupx.code, nodeid := 7, unique := 3, uid := 1000 }

theorem dispatch_decodes_wire_lookup :
    callbacks (trace (World.step (Filesystem.failing Errc.ioError))
        (dispatch {} lookupOfAIn7 ⟨0, 2⟩ {})
        { mem := fun _ => Memory.write (fun _ => 0) 0 [97, 0], initDone := false, fs := () }) =
      [.lookupx { uid := 1000, nodeid := 7, unique := 3 } 7 [97]] :=
  (dispatch_decodes_wire (Filesystem.failing Errc.ioError) {} lookupOfAIn7 ⟨0, 2⟩ {}
    { mem := fun _ => Memory.write (fun _ => 0) 0 [97, 0], initDone := false, fs := () } rfl).1
      (.lookupx [97]) (show (0 : UInt8) ∉ [97] by decide) rfl (by decide)

end Fex
