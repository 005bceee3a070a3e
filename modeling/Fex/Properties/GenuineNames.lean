import Fex.Grammar
import Fex.Properties.ParseBounds

/-!
# Names that reach the daemon

## Main result

`genuineNames_iff`: under every daemon, reply area and content of the memory around the
body, each name handed to a callback is NUL-free and followed by a NUL inside the body (of
the frame, in a compound), and a request without such names is refused with EINVAL, just
when no REMOVEXATTR announces more extensions than it has bytes and every MKOBJX that
passes its length checks has its declared name end in its only NUL and its link body
terminated.

## Proof strategy

All other handlers scan for the NUL and give up at the end of the body, so what they accept
is `Terminated`. MKOBJX cuts its name by `namesize` and lets the link body end with the
request; `run_parseMkobjx` gives its outcome in closed form. REMOVEXATTR is terminated
unless the subtraction wraps, and then a zero behind the body makes a callback.
-/
namespace Fex

open Foundation Program

/-- The string `name` lies at offset `off` of the body with its NUL behind it. -/
structure Terminated (m : Memory) (body : Span) (off : Nat) (name : Bytes) : Prop where
  free : (0 : UInt8) ∉ name
  inside : off + name.length < body.len
  followed : m.read (body.base + off) (name.length + 1) = name ++ [0]

/-- The control fields of a MKOBJX, where the handler looks for them. -/
def mkobjxControl (m : Memory) (h : FuseInHeader) (body : Span) : FuseMkobjxIn :=
  FuseMkobjxIn.codec.dec (m.read (body.base + extBytes h) FuseMkobjxIn.codec.size)

/-- The requested attributes of a MKOBJX, where the handler looks for them. -/
def mkobjxAttrs (m : Memory) (body : Span) : FuseStatx :=
  FuseStatx.codec.dec
    (m.read (body.base + (FuseMkobjxIn.codec.size - FuseStatx.codec.size)) FuseStatx.codec.size)

/-- Where the link body of a MKOBJX starts. -/
def mkobjxLinkOff (m : Memory) (h : FuseInHeader) (body : Span) : Nat :=
  FuseMkobjxIn.codec.size + (mkobjxControl m h body).namesize.toNat

/-- Only a symlink with bytes behind its name carries a link body. -/
def HasLinkBody (m : Memory) (h : FuseInHeader) (body : Span) : Prop :=
  isSymlink (mkobjxAttrs m body).mode = true ∧ mkobjxLinkOff m h body < body.len

instance (m : Memory) (h : FuseInHeader) (body : Span) : Decidable (HasLinkBody m h body) :=
  inferInstanceAs (Decidable (_ ∧ _))

/-- The object a MKOBJX describes: the name is what `namesize` covers but for one byte, the
link target goes up to a NUL or the end of the body. -/
def mkobjxObject (m : Memory) (h : FuseInHeader) (body : Span) : MkobjxIn where
  stat := mkobjxStat (mkobjxAttrs m body)
  flags := (mkobjxControl m h body).flags
  name := m.read (body.base + FuseMkobjxIn.codec.size)
    ((mkobjxControl m h body).namesize.toNat - 1)
  linkTarget := if HasLinkBody m h body then
    beforeNul (m.read (body.base + mkobjxLinkOff m h body) (body.len - mkobjxLinkOff m h body))
    else []

/-- The names and link targets among the arguments of a callback, with the offset in the
body each was taken from; `none` if the wire carries no such field. -/
def Callback.names (m : Memory) (h : FuseInHeader) (body : Span) :
    Callback → List (Option Nat × Bytes)
  | .lookupx _ _ name | .unlink _ _ name | .rmdir _ _ name => [(some 0, name)]
  | .rename _ _ oldname _ newname _ =>
    let off := extBytes h + FuseRename2In.codec.size
    [(some off, oldname), (some (off + oldname.length + 1), newname)]
  | .link _ _ _ name => [(some (extBytes h + FuseLinkIn.codec.size), name)]
  | .getxattr _ _ name _ => [(some (extBytes h + FuseGetxattrIn.codec.size), name)]
  | .setxattr _ _ name _ _ => [(some (extBytes h + FuseSetxattrIn.codec.size), name)]
  | .removexattr _ _ name => [(some (extBytes h), name)]
  | .mkobjx _ _ obj =>
    [(if (mkobjxControl m h body).namesize = 0 then none else some FuseMkobjxIn.codec.size,
        obj.name),
      (if HasLinkBody m h body then some (mkobjxLinkOff m h body) else none, obj.linkTarget)]
  | _ => []

/-- A C string of the body, or the empty string for a field the wire does not carry. -/
def Genuine (m : Memory) (body : Span) : Option Nat × Bytes → Prop
  | (some off, name) => Terminated m body off name
  | (none, name) => name = []

def nameOpcodes : List Opcode :=
  [.lookupx, .mkobjx, .unlink, .rmdir, .rename2, .link, .getxattr, .setxattr, .removexattr]

/-- What one request may do with its names: pass genuine ones to the daemon, or, if its
opcode takes any, fail with EINVAL before any callback. -/
def DeliversNames (m : Memory) (h : FuseInHeader) (body : Span) (calls : List Callback)
    (reply : Replier) : Prop :=
  (∀ c ∈ calls, ∀ n ∈ c.names m h body, Genuine m body n) ∧
    (∀ op ∈ nameOpcodes, h.opcode = op.code → calls = [] →
      reply.negErr = negErrno Errc.invalidArgument)

/-- Two memories that hold the same request body. -/
def AgreeOn (body : Span) (m m' : Memory) : Prop :=
  ∀ a, body.base ≤ a → a < body.base + body.len → m a = m' a

/-- Under every daemon, reply area and memory around the body, the names of the request are
delivered; for a compound those of each frame, whose callbacks are all there are. -/
def GenuineNames (m : Memory) (h : FuseInHeader) (body : Span) : Prop :=
  ∀ (σ : Type) (fs : Filesystem σ) (opts : SessionOptions) (r : Replier) (w : World σ),
    AgreeOn body m (w.mem .scratch) →
    let calls := callbacks (trace (World.step fs) (dispatch opts h body r) w)
    let rounds := (compoundProgress fs (dispatch opts) r body w).rounds
    if h.opcode = Opcode.compound.code then
      (∀ c ∈ calls, ∃ t ∈ rounds, c ∈ callbacks (t.log fs (dispatch opts) r)) ∧
        ∀ t ∈ rounds, DeliversNames (w.mem .scratch) t.header t.frame.payload
          (callbacks (t.log fs (dispatch opts) r)) (t.result fs (dispatch opts) r).1
    else
      DeliversNames (w.mem .scratch) h body calls
        (run (World.step fs) (dispatch opts h body r) w).1

/-- A MKOBJX that passes the length checks: the declared name ends in its only NUL and the
link body contains one. -/
def MkobjxTerminated (m : Memory) (h : FuseInHeader) (body : Span) : Prop :=
  let size := (mkobjxControl m h body).namesize
  h.opcode = Opcode.mkobjx.code → extBytes h + FuseMkobjxIn.codec.size ≤ body.len →
    mkobjxLinkOff m h body ≤ body.len →
    (size ≠ 0 → ∃ name, (0 : UInt8) ∉ name ∧
      m.read (body.base + FuseMkobjxIn.codec.size) size.toNat = name ++ [0]) ∧
    (HasLinkBody m h body →
      (0 : UInt8) ∈ m.read (body.base + mkobjxLinkOff m h body)
        (body.len - mkobjxLinkOff m h body))

/-- The condition on one request: its name fields end where they should. -/
def NamesEnd (m : Memory) (h : FuseInHeader) (body : Span) : Prop :=
  ¬ExtensionOverrun h body ∧ MkobjxTerminated m h body

/-! ### Parsers that scan for the NUL -/

section Scans

variable {σ : Type} (fs : Filesystem σ) {w : World σ} {h : FuseInHeader} {body : Span}

theorem terminated_of_prefix {m : Memory} {off avail : Nat} {name : Bytes}
    (reach : off + avail ≤ body.len) (free : (0 : UInt8) ∉ name)
    (ends : name ++ [0] <+: m.read (body.base + off) avail) : Terminated m body off name := by
  have long := ends.length_le
  rw [List.length_append, List.length_singleton, Memory.length_read] at long
  refine ⟨free, by omega, ?_⟩
  have cut := List.prefix_iff_eq_take.mp ends
  rw [List.length_append, List.length_singleton, Memory.take_read _ _ _ _ long] at cut
  exact cut.symm

theorem cString_terminated {off avail : Nat} {name : Bytes} (reach : off + avail ≤ body.len)
    (parsed : (run (World.step fs) (cString body off avail) w).1 = some name) :
    Terminated (w.mem .scratch) body off name := by
  rw [run_cString] at parsed
  dsimp only at parsed
  split at parsed
  · cases parsed
  next short =>
    obtain ⟨free, ends⟩ := (beforeNul_eq_iff _ name).mp
      ⟨by rwa [Memory.length_read], Option.some.inj parsed⟩
    exact terminated_of_prefix reach free ends

theorem parseName_terminated {name : Bytes}
    (parsed : (run (World.step fs) (parseName body) w).1 = some name) :
    Terminated (w.mem .scratch) body 0 name := by
  rw [parseName] at parsed
  split at parsed
  · cases parsed
  · exact cString_terminated fs (by omega) parsed

theorem parseStructName_terminated {α : Type} {codec : Codec α} {args : α × Bytes}
    (parsed : (run (World.step fs) (parseStructName codec h body) w).1 = some args) :
    Terminated (w.mem .scratch) body (extBytes h + codec.size) args.2 := by
  rw [parseStructName] at parsed
  split at parsed
  · cases parsed
  next enough =>
    rw [run_bind, run_load, run_option_bind_iff] at parsed
    · obtain ⟨name, scanned, same⟩ := parsed
      cases same
      refine cString_terminated fs ?_ scanned
      rw [sizeSub_of_le (by omega)]
      omega
    · rfl

theorem parseRename2_terminated {args : FuseRename2In × Bytes × Bytes}
    (parsed : (run (World.step fs) (parseRename2 h body) w).1 = some args) :
    Terminated (w.mem .scratch) body (extBytes h + FuseRename2In.codec.size) args.2.1 ∧
      Terminated (w.mem .scratch) body
        (extBytes h + FuseRename2In.codec.size + args.2.1.length + 1) args.2.2 := by
  rw [parseRename2] at parsed
  split at parsed
  · cases parsed
  next enough =>
    rw [run_bind, run_load, run_option_bind_iff, sizeSub_of_le (by omega)] at parsed
    · obtain ⟨oldname, scanned, rest⟩ := parsed
      -- The second name is looked for behind the NUL of the first, in what is left of the body.
      have first := cString_terminated fs (by omega) scanned
      have room := first.inside
      obtain ⟨newname, scanned', same⟩ :=
        (run_option_bind_iff (World.step fs) _ _ (by rfl) _ _).mp rest
      obtain ⟨req, old, new⟩ := args
      simp only [run_pure, Option.some.injEq, Prod.mk.injEq] at same
      obtain ⟨-, rfl, rfl⟩ := same
      refine ⟨first, ?_⟩
      rw [run_cString_world] at scanned'
      refine cString_terminated fs ?_ scanned'
      rw [sizeSub_of_le (by omega : oldname.length ≤ _), sizeSub_of_le (by omega)]
      dsimp only
      omega
    · rfl

theorem parseSetxattr_terminated {args : FuseSetxattrIn × Bytes × Bytes}
    (parsed : (run (World.step fs) (parseSetxattr h body) w).1 = some args) :
    Terminated (w.mem .scratch) body (extBytes h + FuseSetxattrIn.codec.size) args.2.1 := by
  rw [parseSetxattr, run_option_bind_iff] at parsed
  · obtain ⟨head, scanned, rest⟩ := parsed
    have name := parseStructName_terminated fs scanned
    dsimp only at rest
    split at rest
    · cases rest
    · rw [run_bind, run_load] at rest
      cases rest
      exact name
  · rfl

theorem parseRemovexattr_terminated {name : Bytes} (fits : extBytes h ≤ body.len)
    (parsed : (run (World.step fs) (parseRemovexattr h body) w).1 = some name) :
    Terminated (w.mem .scratch) body (extBytes h) name := by
  rw [parseRemovexattr, sizeSub_of_le fits] at parsed
  exact cString_terminated fs (by omega) parsed

/-! ### MKOBJX -/

theorem run_parseLinkBody (after : Nat) (mode : UInt16) :
    run (World.step fs) (parseLinkBody body after mode) w =
      (if isSymlink mode = true ∧ after < body.len then
        beforeNul ((w.mem .scratch).read (body.base + after) (body.len - after)) else [], w) := by
  unfold parseLinkBody
  split
  · have bound := length_beforeNul_le
      ((w.mem .scratch).read (body.base + after) (body.len - after))
    rw [Memory.length_read] at bound
    rw [run_bind, run_strnlen, run_bind, run_load, run_pure]
    dsimp only
    rw [← Memory.take_read _ _ (body.len - after) _ bound, ← beforeNul_eq_take]
  · rfl

/-- MKOBJX checks lengths only. -/
theorem run_parseMkobjx :
    (run (World.step fs) (parseMkobjx h body) w).1 =
      if body.len < extBytes h + FuseMkobjxIn.codec.size then none
      else if body.len < mkobjxLinkOff (w.mem .scratch) h body then none
      else some (mkobjxObject (w.mem .scratch) h body) := by
  have off : FuseMkobjxIn.codec.size - FuseStatx.codec.size + FuseStatx.codec.size =
      FuseMkobjxIn.codec.size := by decide
  -- The source guards the subtraction, which truncates anyway.
  have count (size : UInt32) : (if size = 0 then 0 else size.toNat - 1) = size.toNat - 1 := by
    split
    next zero =>
      subst zero
      rfl
    · rfl
  rw [parseMkobjx]
  dsimp only
  rw [off]
  split
  · rfl
  · rw [run_bind, run_load, run_bind, run_load]
    dsimp only
    split
    next short => exact (if_pos (c := body.len < mkobjxLinkOff _ h body) short).symm
    next long =>
      refine Eq.trans ?_ (if_neg (c := body.len < mkobjxLinkOff _ h body) long).symm
      rw [run_bind, run_load, run_bind, run_parseLinkBody, run_pure, count]
      rfl

end Scans

section Objects

variable {m : Memory} {h : FuseInHeader} {body : Span}

/-- A name cut by its declared size is a C string just when the last byte of that size is
its only NUL. -/
theorem terminated_cut_iff {off n : Nat} (positive : 0 < n) (fits : off + n ≤ body.len) :
    Terminated m body off (m.read (body.base + off) (n - 1)) ↔
      ∃ name, (0 : UInt8) ∉ name ∧ m.read (body.base + off) n = name ++ [0] := by
  have size : n - 1 + 1 = n := by omega
  constructor
  · intro terminated
    have followed := terminated.followed
    rw [Memory.length_read, size] at followed
    exact ⟨_, terminated.free, followed⟩
  · rintro ⟨name, free, whole⟩
    have length := congrArg List.length whole
    rw [Memory.length_read, List.length_append, List.length_singleton] at length
    have cut : m.read (body.base + off) (n - 1) = name := by
      rw [← Memory.take_read m _ n _ (Nat.sub_le _ _), whole, List.take_left' (by omega)]
    rw [cut]
    exact terminated_of_prefix fits free (whole ▸ List.prefix_refl _)

/-- A string that may end with the body is a C string just when it does not. -/
theorem terminated_scan_iff {off : Nat} (inside : off < body.len) :
    Terminated m body off (beforeNul (m.read (body.base + off) (body.len - off))) ↔
      (0 : UInt8) ∈ m.read (body.base + off) (body.len - off) := by
  constructor
  · intro terminated
    have room := terminated.inside
    have nul : (0 : UInt8) ∈ (m.read (body.base + off) (body.len - off)).take
        ((beforeNul (m.read (body.base + off) (body.len - off))).length + 1) := by
      rw [Memory.take_read _ _ _ _ (by omega), terminated.followed]
      exact List.mem_append_right _ (List.mem_singleton_self _)
    exact List.mem_of_mem_take nul
  · intro nul
    obtain ⟨free, ends⟩ := (beforeNul_eq_iff _ _).mp ⟨length_beforeNul_ne nul, rfl⟩
    exact terminated_of_prefix (by omega) free ends

theorem mkobjxObject_genuine_iff (ctx : Context) (parent : NodeId)
    (fits : mkobjxLinkOff m h body ≤ body.len) :
    (∀ n ∈ (Callback.mkobjx ctx parent (mkobjxObject m h body)).names m h body,
        Genuine m body n) ↔
      ((mkobjxControl m h body).namesize ≠ 0 → ∃ name, (0 : UInt8) ∉ name ∧
        m.read (body.base + FuseMkobjxIn.codec.size) (mkobjxControl m h body).namesize.toNat =
          name ++ [0]) ∧
      (HasLinkBody m h body → (0 : UInt8) ∈ m.read (body.base + mkobjxLinkOff m h body)
        (body.len - mkobjxLinkOff m h body)) := by
  simp only [Callback.names, List.forall_mem_cons, List.not_mem_nil, false_implies, implies_true,
    and_true]
  refine and_congr ?_ ?_
  · by_cases zero : (mkobjxControl m h body).namesize = 0
    · rw [if_pos zero]
      simp only [Genuine, mkobjxObject, zero]
      exact ⟨fun _ absent => absurd rfl absent, fun _ => rfl⟩
    · rw [if_neg zero]
      have positive : 0 < (mkobjxControl m h body).namesize.toNat :=
        Nat.pos_of_ne_zero fun none => zero (UInt32.toNat_inj.mp none)
      rw [forall_prop_of_true zero]
      exact terminated_cut_iff positive fits
  · by_cases link : HasLinkBody m h body
    · simp only [if_pos link, mkobjxObject, forall_prop_of_true link]
      exact terminated_scan_iff link.2
    · simp only [if_neg link, mkobjxObject, forall_prop_of_false link]
      exact ⟨fun _ => trivial, fun _ => rfl⟩

end Objects

/-! ### One request -/

section Leaf

variable {m : Memory} {h : FuseInHeader} {body : Span}

/-- Requests of the other opcodes carry no names. -/
theorem Request.names_nil (opts : SessionOptions) (span : Bytes) (q : Request)
    (other : q.opcode ∉ nameOpcodes) : (q.callback opts h span).names m h body = [] := by
  cases q with
  | unlink isRmdir name => cases isRmdir <;> simp [Request.opcode, nameOpcodes] at other
  | lookupx | mkobjx | rename2 | link | getxattr | setxattr | removexattr =>
    simp [Request.opcode, nameOpcodes] at other
  | _ => rfl

theorem decodeAt_mkobjx (code : h.opcode = Opcode.mkobjx.code) :
    decodeAt m h body =
      if body.len < extBytes h + FuseMkobjxIn.codec.size then .reject Errc.invalidArgument
      else if body.len < mkobjxLinkOff m h body then .reject Errc.invalidArgument
      else .accept (.mkobjx (mkobjxObject m h body)) := by
  rw [decodeAt, decode, (Opcode.ofCode_eq_some_iff _ _).mpr code]
  dsimp only
  rw [run_map, run_parseMkobjx]
  split
  · rfl
  · split <;> rfl

theorem decodeAt_genuine (ends : NamesEnd m h body) {q : Request}
    (accepted : decodeAt m h body = .accept q) (opts : SessionOptions) (span : Bytes) :
    ∀ n ∈ (q.callback opts h span).names m h body, Genuine m body n := by
  have known : Opcode.ofCode h.opcode = some q.opcode := by
    have known := decodeAt_known m h body
    rwa [accepted] at known
  by_cases other : q.opcode ∉ nameOpcodes
  · rw [Request.names_nil opts span q other]
    exact List.forall_mem_nil _
  -- The opcode selects the parser; what it accepts is the request.
  generalize q.opcode = op at known other
  have code := (Opcode.ofCode_eq_some_iff _ _).mp known
  by_cases object : op = .mkobjx
  · -- MKOBJX does not look for the NUL, so it takes the condition on its names.
    subst object
    rw [decodeAt_mkobjx code] at accepted
    split at accepted
    · cases accepted
    next enough =>
      split at accepted
      · cases accepted
      next fits =>
        cases accepted
        exact (mkobjxObject_genuine_iff _ _ (by omega)).mpr (ends.2 code (by omega) (by omega))
  rw [decodeAt, decode, known] at accepted
  cases op with
  | mkobjx => exact absurd rfl object
  | lookupx | unlink | rmdir =>
    obtain ⟨name, parsed, rfl⟩ := parsed_of_accept _ _ accepted
    exact List.forall_mem_singleton.mpr (parseName_terminated _ parsed)
  | rename2 =>
    obtain ⟨args, parsed, rfl⟩ := parsed_of_accept _ _ accepted
    obtain ⟨old, new⟩ := parseRename2_terminated _ parsed
    exact List.forall_mem_cons.mpr ⟨old, List.forall_mem_singleton.mpr new⟩
  | link | getxattr =>
    obtain ⟨args, parsed, rfl⟩ := parsed_of_accept _ _ accepted
    exact List.forall_mem_singleton.mpr (parseStructName_terminated _ parsed)
  | setxattr =>
    obtain ⟨args, parsed, rfl⟩ := parsed_of_accept _ _ accepted
    exact List.forall_mem_singleton.mpr (parseSetxattr_terminated _ parsed)
  | removexattr =>
    obtain ⟨name, parsed, rfl⟩ := parsed_of_accept _ _ accepted
    -- REMOVEXATTR subtracts without a check, so it takes the condition on the extensions.
    have fits : extBytes h ≤ body.len := Nat.le_of_not_lt fun short => ends.1 ⟨code, short⟩
    exact List.forall_mem_singleton.mpr (parseRemovexattr_terminated _ fits parsed)
  | _ => simp [nameOpcodes] at other

/-- A request with names that is not served is EINVAL. -/
theorem decodeAt_total (m : Memory) (body : Span) {op : Opcode} (carries : op ∈ nameOpcodes)
    (code : h.opcode = op.code) :
    (∃ q, decodeAt m h body = .accept q) ∨
      decodeAt m h body = .reject Errc.invalidArgument := by
  rw [decodeAt, decode, (Opcode.ofCode_eq_some_iff _ _).mpr code]
  cases op with
  | lookupx | unlink | rmdir | mkobjx | rename2 | link | getxattr | setxattr | removexattr =>
    rw [run_map]
    exact Decoded.ofArgs_total ..
  | _ => simp [nameOpcodes] at carries

variable {σ : Type} (fs : Filesystem σ) (opts : SessionOptions) (r : Replier) (w : World σ)

theorem dispatchLeaf_refuses {op : Opcode} (carries : op ∈ nameOpcodes)
    (code : h.opcode = op.code)
    (silent : callbacks (trace (World.step fs) (dispatchLeaf opts h body r) w) = []) :
    (run (World.step fs) (dispatchLeaf opts h body r) w).1.negErr =
      negErrno Errc.invalidArgument := by
  rw [callbacks_dispatchLeaf] at silent
  rw [run_dispatchLeaf]
  rcases decodeAt_total (w.mem .scratch) body carries code with ⟨q, accepted⟩ | rejected
  · rw [accepted] at silent
    cases silent
  · rw [rejected]
    rfl

theorem dispatchLeaf_delivers (ends : NamesEnd (w.mem .scratch) h body) :
    DeliversNames (w.mem .scratch) h body
      (callbacks (trace (World.step fs) (dispatchLeaf opts h body r) w))
      (run (World.step fs) (dispatchLeaf opts h body r) w).1 := by
  refine ⟨?_, fun op carries code silent => dispatchLeaf_refuses fs opts r w carries code silent⟩
  rw [callbacks_dispatchLeaf]
  intro c called
  cases accepted : decodeAt (w.mem .scratch) h body with
  | accept q =>
    rw [accepted] at called
    obtain rfl := List.mem_singleton.mp called
    exact decodeAt_genuine ends accepted opts _
  | reject e =>
    rw [accepted] at called
    cases called
  | ignore =>
    rw [accepted] at called
    cases called

/-- What a MKOBJX delivers is not genuine if its name or link body does not end. -/
theorem dispatchLeaf_mkobjx (delivers : DeliversNames (w.mem .scratch) h body
      (callbacks (trace (World.step fs) (dispatchLeaf opts h body r) w))
      (run (World.step fs) (dispatchLeaf opts h body r) w).1) :
    MkobjxTerminated (w.mem .scratch) h body := by
  intro code enough fits
  have genuine := delivers.1
  rw [callbacks_dispatchLeaf, decodeAt_mkobjx code, if_neg (Nat.not_lt.mpr enough),
    if_neg (Nat.not_lt.mpr fits)] at genuine
  exact (mkobjxObject_genuine_iff _ _ fits).mp (genuine _ (List.mem_singleton_self _))

/-- Behind the body the wrapped length finds a NUL, and the name that ends there does not
lie in the body. -/
theorem dispatchLeaf_overrun (overrun : ExtensionOverrun h body)
    (nul : (0 : UInt8) ∈ (w.mem .scratch).read (body.base + extBytes h)
      (sizeSub body.len (extBytes h))) :
    ¬DeliversNames (w.mem .scratch) h body
      (callbacks (trace (World.step fs) (dispatchLeaf opts h body r) w))
      (run (World.step fs) (dispatchLeaf opts h body r) w).1 := by
  intro delivers
  obtain ⟨code, short⟩ := overrun
  have stops : (beforeNul ((w.mem .scratch).read (body.base + extBytes h)
      (sizeSub body.len (extBytes h)))).length ≠ sizeSub body.len (extBytes h) := by
    have stops := length_beforeNul_ne nul
    rwa [Memory.length_read] at stops
  have genuine := delivers.1
  rw [callbacks_dispatchLeaf, decodeAt, decode, (Opcode.ofCode_eq_some_iff _ _).mpr code] at genuine
  dsimp only at genuine
  rw [run_map, parseRemovexattr, run_cString, if_neg stops] at genuine
  have terminated : Terminated (w.mem .scratch) body (extBytes h) _ :=
    genuine _ (List.mem_singleton_self _) _ (List.mem_singleton_self _)
  have inside := terminated.inside
  omega

/-- If only zeros follow the body from some reachable address on, delivering the names
takes the condition. -/
theorem namesEnd_of_delivers (stop : Nat) (near : stop < body.base + body.len + 2 ^ 64)
    (zeros : ∀ a, stop ≤ a → w.mem .scratch a = 0)
    (delivers : DeliversNames (w.mem .scratch) h body
      (callbacks (trace (World.step fs) (dispatchLeaf opts h body r) w))
      (run (World.step fs) (dispatchLeaf opts h body r) w).1) :
    NamesEnd (w.mem .scratch) h body := by
  refine ⟨?_, dispatchLeaf_mkobjx fs opts r w delivers⟩
  intro overrun
  refine dispatchLeaf_overrun fs opts r w overrun ?_ delivers
  have short := overrun.2
  have small : extBytes h < 2 ^ 64 := by
    have extlen := h.totalExtlen.toNat_lt
    simp only [extBytes]
    omega
  rw [sizeSub_of_lt short, List.mem_iff_getElem?]
  refine ⟨stop - (body.base + extBytes h), ?_⟩
  rw [Memory.getElem?_read, if_pos (by omega), zeros _ (by omega)]

end Leaf

/-! ### The memory around the body -/

section Around

variable {m m' : Memory} {h : FuseInHeader} {body : Span}

theorem AgreeOn.symm (same : AgreeOn body m m') : AgreeOn body m' m :=
  fun a lower upper => (same a lower upper).symm

theorem AgreeOn.within {sub : Span} (same : AgreeOn body m m') (inside : sub.Within body) :
    AgreeOn sub m m' := by
  intro a lower upper
  obtain ⟨left, right⟩ := inside
  exact same a (by omega) (by omega)

theorem AgreeOn.read (same : AgreeOn body m m') {off n : Nat} (inside : off + n ≤ body.len) :
    m.read (body.base + off) n = m'.read (body.base + off) n :=
  Memory.read_congr fun a lower upper => same a (by omega) (by omega)

theorem MkobjxTerminated.congr (same : AgreeOn body m m') (ends : MkobjxTerminated m h body) :
    MkobjxTerminated m' h body := by
  intro code enough fits
  have control : mkobjxControl m h body = mkobjxControl m' h body := by
    rw [mkobjxControl, same.read enough, mkobjxControl]
  have attrs : mkobjxAttrs m body = mkobjxAttrs m' body := by
    have inside : FuseMkobjxIn.codec.size - FuseStatx.codec.size + FuseStatx.codec.size ≤
        body.len := Nat.le_trans (by decide) (Nat.le_of_add_left_le enough)
    rw [mkobjxAttrs, same.read inside, mkobjxAttrs]
  have linkOff : mkobjxLinkOff m h body = mkobjxLinkOff m' h body := by
    rw [mkobjxLinkOff, control, mkobjxLinkOff]
  have ended := ends code enough (linkOff ▸ fits)
  rw [HasLinkBody, attrs, linkOff, control, same.read fits,
    same.read (by omega : mkobjxLinkOff m' h body + (body.len - mkobjxLinkOff m' h body) ≤ _)]
    at ended
  exact ended

theorem NamesEnd.congr (same : AgreeOn body m m') (ends : NamesEnd m h body) :
    NamesEnd m' h body :=
  ⟨ends.1, ends.2.congr same⟩

/-- The body alone in a memory of zeros. -/
def alone (body : Span) (m : Memory) : Memory :=
  fun a => if body.base ≤ a ∧ a < body.base + body.len then m a else 0

theorem agreeOn_alone : AgreeOn body m (alone body m) :=
  fun _ lower upper => (if_pos ⟨lower, upper⟩).symm

theorem alone_behind (a : Nat) (behind : body.base + body.len ≤ a) : alone body m a = 0 :=
  if_neg fun inside => Nat.not_lt.mpr behind inside.2

end Around

/-! ### Frames -/

section Frames

variable {σ : Type} {fs : Filesystem σ} (opts : SessionOptions) (r : Replier)

theorem Round.namesEnd_header (t : Round σ) (m : Memory) :
    NamesEnd m t.header t.frame.payload ↔ NamesEnd m t.frame.header t.frame.payload := by
  unfold Round.header threadNodeid
  split <;> rfl

theorem Round.delivers_iff (t : Round σ) {w : World σ} (body : Span)
    (round : t ∈ (compoundProgress fs (dispatchLeaf opts) r body w).rounds) :
    DeliversNames (w.mem .scratch) t.header t.frame.payload
        (callbacks (t.log fs (dispatch opts) r)) (t.result fs (dispatch opts) r).1 ↔
      DeliversNames (t.start.world.mem .scratch) t.header t.frame.payload
        (callbacks (trace (World.step fs)
          (dispatchLeaf opts t.header t.frame.payload (t.replier r)) t.start.world))
        (run (World.step fs)
          (dispatchLeaf opts t.header t.frame.payload (t.replier r)) t.start.world).1 := by
  rw [compoundProgress_scratch opts r body w round, Round.log_dispatch, Round.result_dispatch,
    Round.log, Round.result, Round.handler_leaf]

end Frames

/-- The condition on a whole request. -/
def RequestNamesEnd (m : Memory) (h : FuseInHeader) (body : Span) : Prop :=
  if h.opcode = Opcode.compound.code then
    ∀ f ∈ (compoundFrames m body).1, NamesEnd m f.header f.payload
  else NamesEnd m h body

theorem genuineNames_of_namesEnd {m : Memory} {h : FuseInHeader} {body : Span}
    (ends : RequestNamesEnd m h body) : GenuineNames m h body := by
  intro σ fs opts r w same
  unfold RequestNamesEnd at ends
  dsimp only
  split
  next compound =>
    rw [if_pos compound] at ends
    rw [dispatch_compound opts h body r compound, compoundProgress_dispatch]
    refine ⟨?_, ?_⟩
    · intro c called
      obtain ⟨t, round, made⟩ := callbacks_compound opts h body r w called
      exact ⟨t, round, by rwa [Round.log_dispatch]⟩
    · intro t round
      have frame := compoundProgress_frame round
      rw [compoundFrames, ← scanFrames_congr same, ← compoundFrames] at frame
      rw [t.delivers_iff opts r body round]
      apply dispatchLeaf_delivers
      rw [compoundProgress_scratch opts r body w round, t.namesEnd_header]
      exact (ends t.frame frame).congr (same.within (scanFrames_within _ _ _ _ _ frame))
  next leaf =>
    rw [if_neg leaf] at ends
    rw [dispatch_leaf opts h body r leaf]
    exact dispatchLeaf_delivers fs opts r w (ends.congr same)

theorem namesEnd_of_genuine {m : Memory} {h : FuseInHeader} {body : Span}
    (leaf : h.opcode ≠ Opcode.compound.code) (genuine : GenuineNames m h body) :
    NamesEnd m h body := by
  let w : World Unit := { mem := fun _ => alone body m, initDone := false, fs := () }
  have delivered := genuine _ (Filesystem.failing Errc.ioError) {} {} w agreeOn_alone
  simp only [if_neg leaf, dispatch_leaf {} h body {} leaf] at delivered
  have ends := namesEnd_of_delivers (Filesystem.failing Errc.ioError) {} {} w
    (body.base + body.len) (by omega) (fun a behind => alone_behind a behind) delivered
  exact ends.congr agreeOn_alone.symm

/-- Names are genuine just when the name fields end where they should. -/
theorem genuineNames_iff (m : Memory) (h : FuseInHeader) (body : Span)
    (sized : body.len < 2 ^ 64) : GenuineNames m h body ↔ RequestNamesEnd m h body := by
  refine ⟨?_, genuineNames_of_namesEnd⟩
  intro genuine
  unfold RequestNamesEnd
  split
  next compound =>
    intro f frame
    rw [compoundFrames, scanFrames_congr agreeOn_alone, ← compoundFrames] at frame
    obtain ⟨r, w, scratch, t, round, rfl⟩ := exists_round {} (alone body m) body f frame
    have delivered := genuine _ scripted {} r w (scratch ▸ agreeOn_alone)
    simp only [if_pos compound] at delivered
    have each := delivered.2 t round
    rw [compoundProgress_dispatch] at round
    rw [t.delivers_iff {} r body round] at each
    have start := (compoundProgress_scratch {} r body w round).trans scratch
    have inside := scanFrames_within _ _ _ _ _ frame
    have ends := namesEnd_of_delivers scripted {} (t.replier r) t.start.world
      (body.base + body.len) (by have := inside.1; omega)
      (fun a behind => by rw [start]; exact alone_behind a behind) each
    rw [start, t.namesEnd_header] at ends
    exact ends.congr (agreeOn_alone.symm.within inside)
  next leaf => exact namesEnd_of_genuine leaf genuine

def mkobjxInRoot : FuseInHeader := { opcode := Opcode.mkobjx.code, nodeid := 1 }

/-- The symlink `a` to `b`, in memory without any other NUL behind it. -/
def symlinkBody : Memory :=
  Memory.write (fun _ => 1) 0
    (FuseMkobjxIn.codec.enc { namesize := 2, stat := { mode := 0xa000 } } ++ [97, 0, 98, 0])

/-- Its name and its target are delivered. -/
theorem genuineNames_iff_symlink :
    (mkobjxObject symlinkBody mkobjxInRoot ⟨0, 324⟩).name = [97] ∧
      (mkobjxObject symlinkBody mkobjxInRoot ⟨0, 324⟩).linkTarget = [98] ∧
      GenuineNames symlinkBody mkobjxInRoot ⟨0, 324⟩ := by
  refine ⟨by decide +kernel, by decide +kernel, (genuineNames_iff _ _ _ (by decide)).mpr ?_⟩
  rw [RequestNamesEnd, if_neg (by decide)]
  refine ⟨?_, fun _ _ _ => ⟨fun _ => ⟨[97], by decide, ?_⟩, fun _ => ?_⟩⟩
  · rintro ⟨code, -⟩
    exact absurd code (by decide)
  · decide +kernel
  · decide +kernel

/-- A MKOBJX whose name is declared to have three bytes: `a`, NUL, `b`. -/
def splitNameBody : Bytes := FuseMkobjxIn.codec.enc { namesize := 3 } ++ [97, 0, 98]

def splitName : Memory := Memory.write (fun _ => 0) 0 splitNameBody

theorem splitName_read :
    splitName.read 0 (FuseMkobjxIn.codec.size + 3) =
      FuseMkobjxIn.codec.enc { namesize := 3 } ++ [97, 0, 98] := by
  have length : splitNameBody.length = FuseMkobjxIn.codec.size + 3 := by
    rw [splitNameBody, List.length_append, Codec.length_enc]
    rfl
  rw [← length]
  exact Memory.read_write_same ..

theorem mkobjxControl_splitName :
    mkobjxControl splitName mkobjxInRoot ⟨0, 323⟩ = { namesize := 3 } := by
  have head : splitName.read 0 FuseMkobjxIn.codec.size =
      FuseMkobjxIn.codec.enc { namesize := 3 } := by
    rw [← Memory.take_read _ _ _ _ (Nat.le_add_right _ 3), splitName_read,
      List.take_left' (Codec.length_enc ..)]
  have read : FuseMkobjxIn.codec.dec (splitName.read 0 FuseMkobjxIn.codec.size) =
      { namesize := 3 } := by
    rw [head, Codec.dec_enc]
  exact read

theorem splitName_name :
    splitName.read (0 + FuseMkobjxIn.codec.size) 3 = [97, 0, 98] := by
  rw [Memory.read_slice _ _ (FuseMkobjxIn.codec.size + 3) _ _ (Nat.le_refl _), splitName_read,
    List.drop_left' (Codec.length_enc ..)]
  rfl

/-- The daemon is asked to create an object whose name contains a NUL. -/
theorem mkobjx_passes_nul :
    (∃ obj : MkobjxIn, obj.name = [97, 0] ∧
      callbacks (trace (World.step (Filesystem.failing Errc.ioError))
        (dispatch {} mkobjxInRoot ⟨0, 323⟩ {})
        { mem := fun _ => splitName, initDone := false, fs := () }) =
          [.mkobjx { nodeid := 1 } 1 obj]) ∧
      ¬GenuineNames splitName mkobjxInRoot ⟨0, 323⟩ := by
  have leaf : mkobjxInRoot.opcode ≠ Opcode.compound.code := by decide
  have linkOff : mkobjxLinkOff splitName mkobjxInRoot ⟨0, 323⟩ = 323 := by
    rw [mkobjxLinkOff, mkobjxControl_splitName]
    rfl
  have decoded : decodeAt splitName mkobjxInRoot ⟨0, 323⟩ =
      .accept (.mkobjx (mkobjxObject splitName mkobjxInRoot ⟨0, 323⟩)) := by
    rw [decodeAt_mkobjx rfl, if_neg (by decide), linkOff, if_neg (by decide)]
  have called : callbacks (trace (World.step (Filesystem.failing Errc.ioError))
      (dispatch {} mkobjxInRoot ⟨0, 323⟩ {})
      { mem := fun _ => splitName, initDone := false, fs := () }) =
        [.mkobjx { nodeid := 1 } 1 (mkobjxObject splitName mkobjxInRoot ⟨0, 323⟩)] := by
    rw [dispatch_leaf _ _ _ _ leaf, callbacks_dispatchLeaf, decoded]
    rfl
  have name : (mkobjxObject splitName mkobjxInRoot ⟨0, 323⟩).name = [97, 0] := by
    rw [mkobjxObject, mkobjxControl_splitName]
    dsimp only
    rw [show (3 : UInt32).toNat - 1 = 2 from rfl, ← Memory.take_read _ _ 3 2 (by decide),
      splitName_name]
    rfl
  refine ⟨⟨_, name, called⟩, ?_⟩
  intro genuine
  have ends := (namesEnd_of_genuine leaf genuine).2 rfl (by decide) (Nat.le_of_eq linkOff)
  rw [mkobjxControl_splitName] at ends
  obtain ⟨name, -, bytes⟩ := ends.1 (by decide)
  have last := congrArg List.getLast? (splitName_name.symm.trans bytes)
  simp at last

end Fex
