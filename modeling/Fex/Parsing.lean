import Fex.Execution

/-!
# What the parsers read

Every parser performs loads of the request body only, so decoding leaves the world
alone and its outcome is a function of the body's memory (`decodeAt`). The loads end
at `readLimit`: the end of the body, except for REMOVEXATTR when the announced
extensions are longer than the body and the unsigned length wraps.
-/
namespace Fex

open Foundation Program

/-- A load through `body` that ends at or before offset `limit`. -/
def ReadsBody (body : Span) (limit : Nat) (op : Op) : Prop :=
  ∃ off len, op = .load .scratch body off len ∧ off + len ≤ limit

/-- The farthest offset a parser may inspect. -/
def readLimit (h : FuseInHeader) (body : Span) : Nat :=
  if h.opcode = Opcode.removexattr.code ∧ body.len < extBytes h then body.len + 2 ^ 64
  else body.len

/-- A parser: it only reads the body up to `limit`, and its results satisfy `post`. -/
abbrev Reads {α : Type} (body : Span) (limit : Nat) (p : Handler α) (post : α → Prop) : Prop :=
  p.Ensures (fun _ _ => True) (fun op _ => ReadsBody body limit op) post

section Parsers

variable {body : Span} {limit : Nat}

theorem load_reads {off len : Nat} (inside : off + len ≤ limit) :
    Reads body limit (load .scratch body off len) fun _ => True :=
  fun _ _ => ⟨⟨off, len, rfl, inside⟩, trivial⟩

theorem strnlen_reads (off maxlen : Nat) (inside : off + maxlen ≤ limit) :
    Reads body limit (strnlen body off maxlen) (· ≤ maxlen) := by
  induction maxlen generalizing off with
  | zero => exact Nat.le_refl 0
  | succ maxlen ih =>
    refine (load_reads (by omega)).bind fun c _ => ?_
    split
    · exact Nat.zero_le _
    · refine (ih (off + 1) (by omega)).bind fun rest bound => ?_
      exact Nat.succ_le_succ bound

theorem cString_reads (off avail : Nat) (inside : off + avail ≤ limit) :
    Reads body limit (cString body off avail) fun s => ∀ name ∈ s, name.length < avail := by
  refine (strnlen_reads off avail inside).bind fun nlen bound => ?_
  split
  · simp
  · refine (load_reads (by omega)).bind fun name _ => ?_
    have length := name.2
    rintro _ ⟨⟩
    omega

theorem inArg_reads {α : Type} (codec : Codec α) (h : FuseInHeader) (fits : body.len ≤ limit) :
    Reads body limit (inArg codec h body) fun arg =>
      arg.isSome → extBytes h + codec.size ≤ body.len := by
  unfold inArg
  split
  · simp
  next enough =>
    refine (load_reads (by omega)).bind fun bytes _ => ?_
    exact fun _ => by omega

theorem parseName_reads (fits : body.len ≤ limit) :
    Reads body limit (parseName body) fun _ => True := by
  unfold parseName
  split
  · trivial
  · exact (cString_reads 0 body.len (by omega)).imp fun _ _ => trivial

theorem forgetItems_reads (off count : Nat)
    (inside : off + count * FuseForgetOne.codec.size ≤ limit) :
    Reads body limit (forgetItems body off count) fun _ => True := by
  induction count generalizing off with
  | zero => trivial
  | succ count ih =>
    rw [Nat.succ_mul] at inside
    refine (load_reads (by omega)).bind fun bytes _ => ?_
    exact (ih _ (by omega)).bind fun rest _ => trivial

theorem parseBatch_reads (count : Nat) (fits : body.len ≤ limit) :
    Reads body limit (parseBatch body count) fun _ => True := by
  unfold parseBatch
  dsimp only
  split
  · trivial
  next enough => exact (forgetItems_reads _ _ (by omega)).bind fun items _ => trivial

theorem parseSetstatx_reads (h : FuseInHeader) (fits : body.len ≤ limit) :
    Reads body limit (parseSetstatx h body) fun _ => True := by
  refine (inArg_reads FuseSetstatxIn.codec h fits).bind fun arg _ => ?_
  cases arg with
  | none => trivial
  | some req =>
    dsimp only
    split
    · trivial
    · exact (load_reads (by omega)).bind fun sx _ => trivial

theorem parseLinkBody_reads (after : Nat) (mode : UInt16) (fits : body.len ≤ limit) :
    Reads body limit (parseLinkBody body after mode) fun _ => True := by
  unfold parseLinkBody
  split
  · refine (strnlen_reads after _ (by omega)).bind fun llen bound => ?_
    exact (load_reads (by omega)).bind fun target _ => trivial
  · trivial

theorem parseMkobjx_reads (h : FuseInHeader) (fits : body.len ≤ limit) :
    Reads body limit (parseMkobjx h body) fun _ => True := by
  have control := FuseMkobjxIn.codec_size
  have stat := FuseStatx.codec_size
  unfold parseMkobjx
  dsimp only
  split
  · trivial
  next enough =>
    refine (load_reads (by omega)).bind fun ctrl _ => ?_
    refine (load_reads (by omega)).bind fun sx _ => ?_
    split
    · trivial
    · -- `namesize` was checked against the body, and the name is not longer.
      refine (load_reads (by split <;> omega)).bind fun name _ => ?_
      exact (parseLinkBody_reads _ _ fits).bind fun linkBody _ => trivial

theorem parseRename2_reads (h : FuseInHeader) (fits : body.len ≤ limit) :
    Reads body limit (parseRename2 h body) fun _ => True := by
  unfold parseRename2
  dsimp only
  split
  · trivial
  next enough =>
    refine (load_reads (by omega)).bind fun bytes _ => ?_
    rw [sizeSub_of_le (by omega)]
    refine (cString_reads _ _ (by omega)).bind fun first bound => ?_
    cases first with
    | none => trivial
    | some oldname =>
      -- The first name is shorter than what was searched, so neither difference wraps.
      have short := bound oldname rfl
      have remain : sizeSub (sizeSub (body.len - (extBytes h + FuseRename2In.codec.size))
          oldname.length) 1 =
            body.len - (extBytes h + FuseRename2In.codec.size) - oldname.length - 1 := by
        rw [sizeSub_of_le (Nat.le_of_lt short), sizeSub_of_le (by omega)]
      dsimp only
      rw [remain]
      refine (cString_reads _ _ (by omega)).bind fun second _ => ?_
      cases second <;> trivial

theorem parseStructName_reads {α : Type} (codec : Codec α) (h : FuseInHeader)
    (fits : body.len ≤ limit) :
    Reads body limit (parseStructName codec h body) fun args =>
      ∀ arg ∈ args, extBytes h + codec.size + arg.2.length < body.len := by
  unfold parseStructName
  dsimp only
  split
  · simp
  next enough =>
    refine (load_reads (by omega)).bind fun bytes _ => ?_
    rw [sizeSub_of_le (by omega)]
    refine (cString_reads _ _ (by omega)).bind fun name bound => ?_
    cases name with
    | none => simp
    | some name =>
      have short := bound name rfl
      rintro _ ⟨⟩
      dsimp only
      omega

theorem parseWrite_reads (h : FuseInHeader) (fits : body.len ≤ limit) :
    Reads body limit (parseWrite h body) fun _ => True := by
  unfold parseWrite
  dsimp only
  split
  · trivial
  next enough =>
    refine (load_reads (by omega)).bind fun bytes _ => ?_
    rw [sizeSub_of_le (by omega)]
    split
    · trivial
    · exact (load_reads (by omega)).bind fun data _ => trivial

theorem parseSetxattr_reads (h : FuseInHeader) (fits : body.len ≤ limit) :
    Reads body limit (parseSetxattr h body) fun _ => True := by
  refine (parseStructName_reads FuseSetxattrIn.codec h fits).bind fun args _ => ?_
  cases args with
  | none => trivial
  | some args =>
    dsimp only
    split
    · trivial
    · exact (load_reads (by omega)).bind fun value _ => trivial

/-- REMOVEXATTR is the parser whose reads may leave the body. -/
theorem parseRemovexattr_reads (h : FuseInHeader)
    (fits : extBytes h + sizeSub body.len (extBytes h) ≤ limit) :
    Reads body limit (parseRemovexattr h body) fun _ => True :=
  (cString_reads _ _ fits).imp fun _ _ => trivial

end Parsers

/-- Decoding reads the body up to `readLimit` and does nothing else. -/
theorem decode_reads (h : FuseInHeader) (body : Span) :
    Reads body (readLimit h body) (decode h body) (Decoded.Known h) := by
  have fits : body.len ≤ readLimit h body := by
    unfold readLimit
    split <;> omega
  have invalid : Decoded.Known h (.reject Errc.invalidArgument) := by
    simp [Decoded.Known, ownErrors]
  have unsupported : Decoded.Known h (.reject Errc.operationNotSupported) := by
    simp [Decoded.Known, ownErrors]
  have args {α : Type} {make : α → Request} {p : Handler (Option α)} {post : Option α → Prop}
      (code : ∀ arg, Opcode.ofCode h.opcode = some (make arg).opcode)
      (reads : Reads body (readLimit h body) p post) :
      Reads body (readLimit h body) (Decoded.ofArgs make <$> p) (Decoded.Known h) := by
    rw [Reads, ensures_map]
    refine reads.imp fun arg _ => ?_
    cases arg with
    | none => exact invalid
    | some arg => exact code arg
  unfold decode
  cases is : Opcode.ofCode h.opcode with
  | none => exact by simp [Decoded.Known, ownErrors]
  | some op =>
    cases op with
    | init =>
      refine (inArg_reads FuseInitIn.codec h fits).bind fun arg _ => ?_
      cases arg with
      | none => exact invalid
      | some req =>
        dsimp only
        split
        · exact unsupported
        · exact is
    | batchForget =>
      refine (inArg_reads FuseBatchForgetIn.codec h fits).bind fun arg _ => ?_
      cases arg with
      | none => exact invalid
      | some req =>
        refine (parseBatch_reads _ fits).bind fun batch _ => ?_
        cases batch <;> exact is
    | removexattr =>
      have code := (Opcode.ofCode_eq_some_iff _ _).mp is
      refine args (fun _ => is) (parseRemovexattr_reads h ?_)
      -- The announced extensions either fit or push the length over `2 ^ 64`.
      unfold readLimit
      by_cases long : body.len < extBytes h
      · rw [if_pos ⟨code, long⟩, sizeSub_of_lt long]
        have bound : extBytes h < 2 ^ 64 := by
          have := h.totalExtlen.toNat_lt
          unfold extBytes
          omega
        omega
      · rw [if_neg (fun both => long both.2), sizeSub_of_le (by omega)]
        omega
    | compound => exact unsupported
    | lookupx | unlink | rmdir => exact args (fun _ => is) (parseName_reads fits)
    | forget | statx | read | fallocate | openFile | release | releasedir | readdir | listxattr =>
      exact args (fun _ => is) (inArg_reads _ h fits)
    | setstatx => exact args (fun _ => is) (parseSetstatx_reads h fits)
    | mkobjx => exact args (fun _ => is) (parseMkobjx_reads h fits)
    | rename2 => exact args (fun _ => is) (parseRename2_reads h fits)
    | link | getxattr => exact args (fun _ => is) (parseStructName_reads _ h fits)
    | write => exact args (fun _ => is) (parseWrite_reads h fits)
    | setxattr => exact args (fun _ => is) (parseSetxattr_reads h fits)
    | lookupRoot | readlink | statfs | opendir => exact is

/-! ### Decoding as a function of memory -/

section Pure

variable {α σ τ : Type} {body : Span} {limit : Nat} {p : Handler α} {post : α → Prop}

/-- A parser's result depends on the bytes it may read, not on the daemon. -/
theorem Reads.run_congr (reads : Reads body limit p post) (fs : Filesystem σ) (fs' : Filesystem τ)
    (w : World σ) (w' : World τ)
    (same : ∀ a, body.base ≤ a → a < body.base + limit → w'.mem .scratch a = w.mem .scratch a) :
    (run (World.step fs') p w').1 = (run (World.step fs) p w).1 := by
  refine (reads.simulation (World.step fs) (World.step fs') (fun _ _ => trivial)
    (fun s t => s = w ∧ t = w') ?_ w w' ⟨rfl, rfl⟩).1
  rintro _ _ _ ⟨rfl, rfl⟩ ⟨off, len, rfl, inside⟩
  refine ⟨Subtype.ext ?_, rfl, rfl⟩
  exact Memory.read_congr fun a _ _ => same a (by omega) (by omega)

theorem Reads.run_state (reads : Reads body limit p post) (fs : Filesystem σ) (w : World σ) :
    (run (World.step fs) p w).2 = w := by
  refine reads.preserves (World.step fs) (fun _ _ => trivial) (· = w) ?_ w rfl
  rintro _ _ ⟨off, len, rfl, _⟩ rfl
  rfl

theorem Reads.callbacks (reads : Reads body limit p post) (fs : Filesystem σ) (w : World σ) :
    callbacks (trace (World.step fs) p w) = [] := by
  apply callbacks_eq_nil
  intro e member cb is
  obtain ⟨off, len, load, _⟩ := (reads.sound (World.step fs) (fun _ _ => trivial) w).1 e member
  rw [is] at load
  cases load

end Pure

/-- The outcome of decoding a body that lies in `m`. -/
def decodeAt (m : Memory) (h : FuseInHeader) (body : Span) : Decoded :=
  (run (World.step (Filesystem.failing Errc.ioError)) (decode h body) ⟨fun _ => m, false, ()⟩).1

theorem run_decode {σ : Type} (fs : Filesystem σ) (w : World σ) (h : FuseInHeader)
    (body : Span) :
    run (World.step fs) (decode h body) w = (decodeAt (w.mem .scratch) h body, w) := by
  have reads := decode_reads h body
  refine Prod.ext ?_ (reads.run_state fs w)
  exact reads.run_congr (Filesystem.failing Errc.ioError) fs _ w fun _ _ _ => rfl

theorem decodeAt_known (m : Memory) (h : FuseInHeader) (body : Span) :
    (decodeAt m h body).Known h :=
  ((decode_reads h body).sound _ (fun _ _ => trivial) _).2

/-- COMPOUND is not decoded, so what is decoded is a leaf. -/
theorem decodeAt_leaf {m : Memory} {h : FuseInHeader} {body : Span} {q : Request}
    (accepted : decodeAt m h body = .accept q) : h.opcode ≠ Opcode.compound.code := by
  intro compound
  rw [decodeAt, decode, (Opcode.ofCode_eq_some_iff _ _).mpr compound] at accepted
  cases accepted

/-- Decoding depends on the bytes up to `readLimit` only. -/
theorem decodeAt_congr {m m' : Memory} (h : FuseInHeader) (body : Span)
    (same : ∀ a, body.base ≤ a → a < body.base + readLimit h body → m a = m' a) :
    decodeAt m h body = decodeAt m' h body :=
  (decode_reads h body).run_congr _ _ ⟨fun _ => m', false, ()⟩ ⟨fun _ => m, false, ()⟩ same

@[simp] theorem callbacks_decode {σ : Type} (fs : Filesystem σ) (w : World σ) (h : FuseInHeader)
    (body : Span) : callbacks (trace (World.step fs) (decode h body) w) = [] :=
  (decode_reads h body).callbacks fs w

end Fex
