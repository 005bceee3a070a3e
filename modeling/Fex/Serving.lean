import Fex.Parsing

/-!
# What serving a request does

Serving touches the reply area only, calls the daemon once and leaves a `Replier`
whose length is one the opcode can produce (`ReplyShape`). All of it is stated for
any answers an honest daemon may give.
-/
namespace Fex

open Foundation Program

/-! ### Answers of a daemon -/

/-- An answer some daemon whose errors are `allowed` can give: a `DirentWriter` has
only been changed through `add`. -/
def Honest (allowed : Errc → Prop) : (op : Op) → op.Answer → Prop
  | .call cb, answer =>
    (∀ e, Callback.Answer.error? cb answer = some e → allowed e) ∧
      match cb, answer with
      | .readdir _ _ _ _ writer, answer =>
        ∃ (α : Type) (script : DirentScript α), answer.2 = (script.fill writer).2
      | _, _ => True
  | _, _ => True

theorem honest_step {σ : Type} {fs : Filesystem σ} {allowed : Errc → Prop}
    (errors : fs.ErrorsSatisfy allowed) (op : Op) (w : World σ) :
    Honest allowed op (World.step fs op w).1 := by
  cases op with
  | load | store | setInitDone => trivial
  | call cb =>
    refine ⟨fun e reported => errors cb w.fs e reported, ?_⟩
    cases cb with
    | readdir ctx nodeid fh offset writer =>
      exact ⟨_, fs.readdir ctx nodeid fh offset w.fs, rfl⟩
    | _ => trivial

/-! ### Replies -/

/-- An access of the reply area, a callback, or the INIT flag. -/
def Op.Serves (area : Span) : Op → Prop
  | .load blk span off len => blk = .slot ∧ span = area ∧ off + len ≤ area.len
  | .store blk span off bytes => blk = .slot ∧ span = area ∧ off + bytes.length ≤ area.len
  | .call _ | .setInitDone => True

/-- `r'` answers the request `r` was prepared for. -/
structure Answered (allowed : Errc → Prop) (r r' : Replier) : Prop where
  out : r'.out = r.out
  cap : r'.cap = r.cap
  unique : r'.unique = r.unique
  fits : r'.len ≤ r.cap
  error_empty : r'.negErr ≠ 0 → r'.len = 0
  cause : r'.negErr = 0 ∨ ∃ e, (allowed e ∨ e ∈ ownErrors) ∧ r'.negErr = negErrno e

theorem answered_error {allowed : Errc → Prop} (r : Replier) {e : Errc}
    (known : allowed e ∨ e ∈ ownErrors) : Answered allowed r (replyError r e) :=
  ⟨rfl, rfl, rfl, Nat.zero_le _, fun _ => rfl, .inr ⟨e, known, rfl⟩⟩

theorem answered_data {allowed : Errc → Prop} (r : Replier) {len : Nat} (fits : len ≤ r.cap) :
    Answered allowed r { r with negErr := 0, len := len } :=
  ⟨rfl, rfl, rfl, fits, fun failed => absurd rfl failed, .inl rfl⟩

/-- The lengths a successful or failed reply can have. -/
inductive ReplyShape where
  /-- status only -/
  | empty
  /-- a struct of `n` bytes -/
  | fixed (n : Nat)
  /-- up to `n` bytes filled in by the daemon -/
  | filled (n : Nat)
  /-- a byte string of the daemon's choice -/
  | payload
  /-- directory records in a buffer of `n` bytes -/
  | dirents (n : Nat)

def ReplyShape.Allows (cap len : Nat) : ReplyShape → Prop
  | empty => len = 0
  | fixed n => len = 0 ∨ len = n ∧ n ≤ cap
  | filled n => len ≤ min n cap
  | payload => len ≤ cap
  | dirents n => len = 0 ∨ 8 ∣ len ∧ FuseDirent.codec.size ≤ len ∧ len ≤ min n cap

theorem ReplyShape.Allows.fits {cap len : Nat} {shape : ReplyShape}
    (allows : shape.Allows cap len) : len ≤ cap := by
  cases shape with
  | empty => exact allows ▸ Nat.zero_le _
  | fixed n =>
    rcases allows with rfl | ⟨rfl, fits⟩
    · exact Nat.zero_le _
    · exact fits
  | filled n => exact Nat.le_trans allows (Nat.min_le_right _ _)
  | payload => exact allows
  | dirents n =>
    rcases allows with rfl | ⟨-, -, fits⟩
    · exact Nat.zero_le _
    · exact Nat.le_trans fits (Nat.min_le_right _ _)

theorem ReplyShape.allows_zero (cap : Nat) (shape : ReplyShape) : shape.Allows cap 0 := by
  cases shape with
  | empty => rfl
  | fixed n => exact .inl rfl
  | filled n => exact Nat.zero_le _
  | payload => exact Nat.zero_le _
  | dirents n => exact .inl rfl

/-- The lengths a successful reply can have: a struct is complete. -/
def ReplyShape.Succeeds (cap len : Nat) : ReplyShape → Prop
  | fixed n => len = n
  | shape => shape.Allows cap len

/-- The shape of the reply to a request. -/
def Request.shape : Request → ReplyShape
  | init _ => .fixed FuseInitOut.codec.size
  | lookupRoot | lookupx _ | mkobjx _ => .fixed FuseEntryxOut.codec.size
  | statx | setstatx _ => .fixed FuseStatxOut.codec.size
  | openFile _ | opendir => .fixed FuseOpenOut.codec.size
  | write _ => .fixed FuseWriteOut.codec.size
  | statfs => .fixed FuseKstatfs.codec.size
  | read req => .filled req.size.toNat
  | readlink => .payload
  | readdir req => .dirents req.size.toNat
  | getxattr (req, _) =>
    if req.size = 0 then .fixed FuseGetxattrOut.codec.size else .filled req.size.toNat
  | listxattr size => if size = 0 then .fixed FuseGetxattrOut.codec.size else .filled size.toNat
  | forget _ | batchForget _ | unlink .. | rename2 _ | link _ | release _ | fallocate _
  | releasedir _ | setxattr _ | removexattr _ => .empty

section Specification

variable {allowed : Errc → Prop} {r : Replier} {shape : ReplyShape}

/-- A reply to `r` whose length the shape allows. -/
structure Replied (allowed : Errc → Prop) (shape : ReplyShape) (r r' : Replier) : Prop
    extends Answered allowed r r' where
  allows : shape.Allows r.cap r'.len
  succeeds : (∀ e, allowed e → e ≠ 0) → r'.negErr = 0 → shape.Succeeds r.cap r'.len

/-- Serving through the reply area of `r`. -/
abbrev Serves (allowed : Errc → Prop) (shape : ReplyShape) (r : Replier) (p : Handler Replier) :
    Prop :=
  p.Ensures (Honest allowed) (fun op _ => op.Serves r.span) (Replied allowed shape r)

theorem ownErrors_ne_zero (e : Errc) (own : e ∈ ownErrors) : e ≠ 0 := by
  have all : ownErrors.all (· != 0) = true := by decide
  exact bne_iff_ne.mp (List.all_eq_true.mp all e own)

theorem serves_error {e : Errc} (known : allowed e ∨ e ∈ ownErrors) :
    Serves allowed shape r (pure (replyError r e)) := by
  -- An error of the daemon may be 0, which the kernel takes for success; hence the premise.
  refine ⟨answered_error r known, shape.allows_zero r.cap, ?_⟩
  intro nonzero success
  have zero : e = 0 := negErrno_eq_zero.mp success
  rcases known with given | own
  · exact absurd zero (nonzero e given)
  · exact absurd zero (ownErrors_ne_zero e own)

theorem serves_data {len : Nat} (allows : shape.Allows r.cap len)
    (succeeds : shape.Succeeds r.cap len) :
    Serves allowed shape r (pure { r with negErr := 0, len := len }) :=
  ⟨answered_data r allows.fits, allows, fun _ _ => succeeds⟩

theorem replyPayload_serves (p : Bytes) (allows : p.length ≤ r.cap → shape.Allows r.cap p.length)
    (succeeds : p.length ≤ r.cap → shape.Succeeds r.cap p.length) :
    Serves allowed shape r (replyPayload r p) := by
  unfold replyPayload
  split
  · exact serves_error (.inr (by simp [ownErrors]))
  next fits =>
    have inside : p.length ≤ r.cap := Nat.le_of_not_lt fits
    have stored : (store .slot r.span 0 p).Ensures (Honest allowed)
        (fun op _ => op.Serves r.span) (fun _ => True) :=
      fun _ _ => ⟨⟨rfl, rfl, by simpa [Replier.span] using inside⟩, trivial⟩
    -- An empty payload is not copied at all.
    cases empty : p.isEmpty with
    | true => exact serves_data (allows inside) (succeeds inside)
    | false => exact stored.bind fun _ _ => serves_data (allows inside) (succeeds inside)

theorem replyPod_serves {α : Type} (codec : Codec α) (pod : α) :
    Serves allowed (.fixed codec.size) r (replyPod codec r pod) :=
  replyPayload_serves _ (fun fits => .inr ⟨codec.length_enc pod, by simpa using fits⟩)
    fun _ => codec.length_enc pod

/-- A callback's error is passed on; its result is packed. -/
theorem withAnswer_serves {α : Type} {rv : Except Errc α} {pack : α → Handler Replier}
    (errors : ∀ e, rv = .error e → allowed e) (packs : ∀ a, Serves allowed shape r (pack a)) :
    Serves allowed shape r (withAnswer r rv pack) := by
  cases rv with
  | error e => exact serves_error (.inl (errors e rfl))
  | ok a => exact packs a

theorem replyStatus_serves {rv : Except Errc Unit} (errors : ∀ e, rv = .error e → allowed e) :
    Serves allowed .empty r (replyStatus r rv) :=
  withAnswer_serves errors fun _ => serves_data rfl rfl

theorem replySize_serves {rv : Except Errc Nat} (errors : ∀ e, rv = .error e → allowed e) :
    Serves allowed (.fixed FuseGetxattrOut.codec.size) r (replySize r rv) :=
  withAnswer_serves errors fun _ => replyPod_serves _ _

theorem replyFilled_serves {rv : Except Errc Nat} (n : Nat)
    (errors : ∀ e, rv = .error e → allowed e) :
    Serves allowed (.filled n) r (replyFilled r (min n r.cap) rv) :=
  withAnswer_serves errors fun _ => serves_data (Nat.min_le_right _ _) (Nat.min_le_right _ _)

/-- Making a callback: the continuation may assume an honest answer. -/
theorem call_serves {cb : Callback} {rest : cb.Answer → Handler Replier}
    (serves : ∀ answer, Honest allowed (.call cb) answer → Serves allowed shape r (rest answer)) :
    Serves allowed shape r (call cb >>= rest) :=
  fun answer honest => ⟨trivial, serves answer honest⟩

/-- Handing `want` bytes of the reply area to the daemon and storing them back. -/
theorem fill_serves {want : Nat} (fits : want ≤ r.cap) (cb : Bytes → Callback)
    (filled : (span : Bytes) → (cb span).Answer → Bytes)
    (rest : (span : Bytes) → (cb span).Answer → Handler Replier)
    (length : ∀ span answer, Honest allowed (.call (cb span)) answer →
      (filled span answer).length = span.length)
    (serves : ∀ span answer, span.length = want → Honest allowed (.call (cb span)) answer →
      Serves allowed shape r (rest span answer)) :
    Serves allowed shape r (do
      let span ← load .slot r.span 0 want
      let answer ← call (cb span.1)
      store .slot r.span 0 (filled span.1 answer)
      rest span.1 answer) := by
  intro span _
  refine ⟨⟨rfl, rfl, by simpa [Replier.span] using fits⟩, fun answer honest => ⟨trivial, ?_⟩⟩
  -- The daemon returns as many bytes as it was lent, so they fit where they came from.
  have same := length span.1 answer honest
  refine fun _ _ => ⟨⟨rfl, rfl, ?_⟩, serves span.1 answer span.2 honest⟩
  have given := span.2
  simp only [Replier.span]
  omega

/-- The verdict of an honest callback that failed. -/
theorem errorOf_allowed {α : Type} {rv : Except Errc α}
    (honest : ∀ e, Callback.Answer.error?.errorOf rv = some e → allowed e) (e : Errc)
    (failed : rv = .error e) : allowed e :=
  honest e (by rw [failed]; rfl)

/-- The callbacks that fill a span and report how much of it they used. -/
theorem filled_serves (n : Nat) (cb : Bytes → Callback)
    (verdict : (span : Bytes) → (cb span).Answer → Except Errc Nat)
    (filled : (span : Bytes) → (cb span).Answer → Bytes)
    (length : ∀ span answer, (filled span answer).length = span.length)
    (errors : ∀ span answer, Honest allowed (.call (cb span)) answer →
      ∀ e, verdict span answer = .error e → allowed e) :
    Serves allowed (.filled n) r (do
      let span ← load .slot r.span 0 (min n r.cap)
      let answer ← call (cb span.1)
      store .slot r.span 0 (filled span.1 answer)
      replyFilled r (min n r.cap) (verdict span.1 answer)) := by
  refine fill_serves (Nat.min_le_right _ _) cb filled
    (fun span answer => replyFilled r (min n r.cap) (verdict span answer)) ?_ ?_
  · intro span answer _
    exact length span answer
  · intro span answer _ honest
    exact replyFilled_serves n (errors span answer honest)

theorem serveRead_serves (h : FuseInHeader) (req : FuseReadIn) :
    Serves allowed (.filled req.size.toNat) r (serveRead h r req) :=
  filled_serves _ (fun span => .read (makeCtx h) h.nodeid req.fh req.offset span)
    (fun _ answer => answer.1) (fun _ answer => answer.2.1) (fun _ answer => answer.2.2)
    (fun _ _ honest => errorOf_allowed honest.1)

theorem serveReaddir_serves (h : FuseInHeader) (req : FuseReadIn) :
    Serves allowed (.dirents req.size.toNat) r (serveReaddir h r req) := by
  have start (span : Bytes) : DirentWriter.Valid { buf := span } := Nat.zero_le _
  refine fill_serves (Nat.min_le_right _ _)
    (fun span => .readdir (makeCtx h) h.nodeid req.fh req.offset { buf := span })
    (fun _ answer => answer.2.buf)
    (fun _ answer => withAnswer r answer.1
      fun _ => return { r with negErr := 0, len := answer.2.pos }) ?_ ?_
  · rintro span ⟨rv, w⟩ ⟨_, α, script, rfl⟩
    exact (script.fill_valid _ (start span)).1
  · rintro span ⟨rv, w⟩ length ⟨errors, α, script, rfl⟩
    obtain ⟨size, inside⟩ := script.fill_valid _ (start span)
    -- The cursor is 0 or behind whole records, and never past the span.
    have allows : (ReplyShape.dirents req.size.toNat).Allows r.cap
        (script.fill { buf := span }).2.pos := by
      rcases script.fill_aligned { buf := span } (.inl rfl) with zero | ⟨whole, record⟩
      · exact .inl zero
      · refine .inr ⟨whole, record, ?_⟩
        have bound : (script.fill { buf := span }).2.pos ≤
            (script.fill { buf := span }).2.buf.length := inside
        rw [size] at bound
        exact length ▸ bound
    exact withAnswer_serves (errorOf_allowed errors) fun _ => serves_data allows allows

theorem serveGetxattr_serves (h : FuseInHeader) (args : FuseGetxattrIn × Bytes) :
    Serves allowed (Request.getxattr args).shape r (serveGetxattr h r args) := by
  obtain ⟨req, name⟩ := args
  unfold serveGetxattr Request.shape
  dsimp only
  split
  · exact call_serves fun answer honest => replySize_serves (errorOf_allowed honest.1)
  · exact filled_serves _ (fun span => .getxattr (makeCtx h) h.nodeid name span)
      (fun _ answer => answer.1) (fun _ answer => answer.2.1) (fun _ answer => answer.2.2)
      (fun _ _ honest => errorOf_allowed honest.1)

theorem serveListxattr_serves (h : FuseInHeader) (size : UInt32) :
    Serves allowed (Request.listxattr size).shape r (serveListxattr h r size) := by
  unfold serveListxattr Request.shape
  dsimp only
  split
  · exact call_serves fun answer honest => replySize_serves (errorOf_allowed honest.1)
  · exact filled_serves _ (fun span => .listxattr (makeCtx h) h.nodeid span)
      (fun _ answer => answer.1) (fun _ answer => answer.2.1) (fun _ answer => answer.2.2)
      (fun _ _ honest => errorOf_allowed honest.1)

theorem serveInit_serves (opts : SessionOptions) (req : FuseInitIn) :
    Serves allowed (.fixed FuseInitOut.codec.size) r (serveInit opts r req) := by
  refine call_serves fun answer honest => withAnswer_serves (errorOf_allowed honest.1) ?_
  intro info
  split
  · exact replyPod_serves _ _
  · -- `init_done` is set before the reply.
    exact fun _ _ => ⟨trivial, replyPod_serves _ _⟩

/-- Every request is served inside the reply area, with a length of its shape. -/
theorem serve_serves (opts : SessionOptions) (h : FuseInHeader) (q : Request) :
    Serves allowed q.shape r (serve opts h r q) := by
  cases q with
  | init req => exact serveInit_serves opts req
  | read req => exact serveRead_serves h req
  | readdir req => exact serveReaddir_serves h req
  | getxattr args => exact serveGetxattr_serves h args
  | listxattr size => exact serveListxattr_serves h size
  | forget nlookup => exact call_serves fun _ _ => serves_data rfl rfl
  | batchForget items => exact call_serves fun _ _ => serves_data rfl rfl
  -- The target is replied whole or not at all.
  | readlink =>
    refine call_serves fun answer honest => withAnswer_serves (errorOf_allowed honest.1) ?_
    exact fun target => replyPayload_serves target (fun fits => fits) fun fits => fits
  | unlink isRmdir name =>
    cases isRmdir with
    | true => exact call_serves fun _ honest => replyStatus_serves (errorOf_allowed honest.1)
    | false => exact call_serves fun _ honest => replyStatus_serves (errorOf_allowed honest.1)
  | lookupRoot | lookupx | statx | setstatx | mkobjx | openFile | write | statfs | opendir =>
    refine call_serves fun answer honest => withAnswer_serves (errorOf_allowed honest.1) ?_
    exact fun _ => replyPod_serves _ _
  | rename2 | link | release | fallocate | releasedir | setxattr | removexattr =>
    exact call_serves fun _ honest => replyStatus_serves (errorOf_allowed honest.1)

end Specification

/-! ### The callback of a request -/

/-- How many bytes of the reply area are lent to the daemon. -/
def Request.lent (cap : Nat) : Request → Nat
  | read req | readdir req => min req.size.toNat cap
  | getxattr (req, _) => if req.size = 0 then 0 else min req.size.toNat cap
  | listxattr size => if size = 0 then 0 else min size.toNat cap
  | _ => 0

/-- The callback a request stands for; `span` is what is lent to it. -/
def Request.callback (opts : SessionOptions) (h : FuseInHeader) (span : Bytes) :
    Request → Callback
  | init req => .init (initInfo opts req)
  | lookupRoot => .lookupRoot (makeCtx h)
  | lookupx name => .lookupx (makeCtx h) h.nodeid name
  | forget nlookup => .forget h.nodeid nlookup
  | batchForget items => .forgetMulti items
  | statx => .statx (makeCtx h) h.nodeid
  | setstatx (fh, attrs) => .setstatx (makeCtx h) h.nodeid fh attrs
  | mkobjx obj => .mkobjx (makeCtx h) h.nodeid obj
  | unlink true name => .rmdir (makeCtx h) h.nodeid name
  | unlink false name => .unlink (makeCtx h) h.nodeid name
  | rename2 (req, oldname, newname) =>
    .rename (makeCtx h) h.nodeid oldname req.newdir newname req.flags
  | link (req, name) => .link (makeCtx h) req.oldnodeid h.nodeid name
  | openFile flags => .openFile (makeCtx h) h.nodeid flags
  | release req => .release (makeCtx h) h.nodeid req.fh req.flags
  | read req => .read (makeCtx h) h.nodeid req.fh req.offset span
  | write (req, data) => .write (makeCtx h) h.nodeid req.fh req.offset data
  | readlink => .readlink (makeCtx h) h.nodeid
  | statfs => .statfs (makeCtx h) h.nodeid
  | fallocate req => .fallocate (makeCtx h) h.nodeid req.fh req.mode req.offset req.length
  | opendir => .opendir (makeCtx h) h.nodeid
  | releasedir fh => .releasedir (makeCtx h) h.nodeid fh
  | readdir req => .readdir (makeCtx h) h.nodeid req.fh req.offset { buf := span }
  | getxattr (_, name) => .getxattr (makeCtx h) h.nodeid name span
  | setxattr (req, name, value) => .setxattr (makeCtx h) h.nodeid name value req.flags
  | listxattr _ => .listxattr (makeCtx h) h.nodeid span
  | removexattr name => .removexattr (makeCtx h) h.nodeid name

section Callbacks

variable {σ : Type} (fs : Filesystem σ) (w : World σ) (r : Replier)

@[simp] theorem callbacks_replyPayload (p : Bytes) :
    callbacks (trace (World.step fs) (replyPayload r p) w) = [] := by
  unfold replyPayload
  split
  · rfl
  · cases p <;> rfl

@[simp] theorem callbacks_replyPod {α : Type} (codec : Codec α) (pod : α) :
    callbacks (trace (World.step fs) (replyPod codec r pod) w) = [] :=
  callbacks_replyPayload fs w r _

theorem callbacks_withAnswer {α : Type} (rv : Except Errc α) (pack : α → Handler Replier)
    (quiet : ∀ a, callbacks (trace (World.step fs) (pack a) w) = []) :
    callbacks (trace (World.step fs) (withAnswer r rv pack) w) = [] := by
  cases rv with
  | error e => rfl
  | ok a => exact quiet a

@[simp] theorem callbacks_replyStatus (rv : Except Errc Unit) :
    callbacks (trace (World.step fs) (replyStatus r rv) w) = [] :=
  callbacks_withAnswer fs w r rv _ fun _ => rfl

@[simp] theorem callbacks_replySize (rv : Except Errc Nat) :
    callbacks (trace (World.step fs) (replySize r rv) w) = [] :=
  callbacks_withAnswer fs w r rv _ fun _ => callbacks_replyPod ..

@[simp] theorem callbacks_replyFilled (want : Nat) (rv : Except Errc Nat) :
    callbacks (trace (World.step fs) (replyFilled r want rv) w) = [] :=
  callbacks_withAnswer fs w r rv _ fun _ => rfl

/-- Serving a request makes its callback, once. -/
theorem callbacks_serve (opts : SessionOptions) (h : FuseInHeader) (q : Request) :
    callbacks (trace (World.step fs) (serve opts h r q) w) =
      [q.callback opts h ((w.mem .slot).read r.out (q.lent r.cap))] := by
  cases q with
  | init req =>
    simp only [serve, serveInit, trace_bind, callbacks_append]
    rw [callbacks_withAnswer]
    · rfl
    · intro info
      split <;> simp
  | read req =>
    simp [serve, serveRead, Request.callback, Request.lent, Replier.span]
    rfl
  | readdir req =>
    simp only [serve, serveReaddir, trace_bind, callbacks_append, run_load, callbacks_load,
      callbacks_store, List.nil_append]
    rw [callbacks_withAnswer _ _ _ _ _ fun _ => rfl]
    rfl
  | getxattr args =>
    obtain ⟨req, name⟩ := args
    by_cases query : req.size = 0
    · -- A size query lends nothing.
      simp [serve, serveGetxattr, Request.callback, Request.lent, query, Memory.read]
      rfl
    · simp [serve, serveGetxattr, Request.callback, Request.lent, query, Replier.span]
      rfl
  | listxattr size =>
    by_cases query : size = 0
    · simp [serve, serveListxattr, Request.callback, Request.lent, query, Memory.read]
      rfl
    · simp [serve, serveListxattr, Request.callback, Request.lent, query, Replier.span]
      rfl
  | unlink isRmdir name =>
    cases isRmdir <;> simp [serve, serveUnlink] <;> rfl
  | forget | batchForget => rfl
  | rename2 | link | release | fallocate | releasedir | setxattr | removexattr =>
    simp [serve, serveRename2, serveLink, serveRelease, serveFallocate, serveReleasedir,
      serveSetxattr, serveRemovexattr]
    rfl
  | lookupRoot | lookupx | statx | setstatx | mkobjx | openFile | write | readlink | statfs
  | opendir =>
    -- One callback, then a struct or a string that is packed without another.
    simp only [serve, handleLookupRoot, serveLookupx, serveStatx, serveSetstatx, serveMkobjx,
      serveOpen, serveWrite, handleReadlink, handleStatfs, handleOpendir, trace_bind,
      callbacks_append]
    rw [callbacks_withAnswer _ _ _ _ _ fun _ => by simp]
    rfl

end Callbacks

/-! ### Leaf dispatch -/

def Decoded.shape : Decoded → ReplyShape
  | accept q => q.shape
  | reject _ | ignore => .empty

theorem respond_serves {allowed : Errc → Prop} {r : Replier} (opts : SessionOptions)
    (h : FuseInHeader) (d : Decoded) (known : d.Known h) :
    Serves allowed d.shape r (respond opts h r d) := by
  cases d with
  | accept q => exact serve_serves opts h q
  | reject e => exact serves_error (.inr known)
  | ignore => exact serves_data rfl rfl

/-- What a leaf dispatch may do: read the body, then serve through the reply area. -/
def Op.Leaf (h : FuseInHeader) (body : Span) (r : Replier) (op : Op) : Prop :=
  ReadsBody body (readLimit h body) op ∨ op.Serves r.span

theorem dispatchLeaf_ensures {allowed : Errc → Prop} (opts : SessionOptions) (h : FuseInHeader)
    (body : Span) (r : Replier) :
    (dispatchLeaf opts h body r).Ensures (Honest allowed) (fun op _ => op.Leaf h body r)
      (Answered allowed r) := by
  have reads : (decode h body).Ensures (Honest allowed) (fun op _ => op.Leaf h body r)
      (Decoded.Known h) :=
    (decode_reads h body).weaken (fun _ _ _ => trivial) (fun _ _ _ read => .inl read)
      (fun _ known => known)
  rw [dispatchLeaf_eq]
  refine reads.bind fun d known => ?_
  have serves : Serves allowed d.shape r (respond opts h r d) := respond_serves opts h d known
  exact serves.mono (fun _ _ _ served => .inr served) fun _ replied => replied.toAnswered

/-- `w'` differs from `w` in the bytes of `area` at most, as far as memory goes. -/
structure World.Touches {σ : Type} (area : Span) (w w' : World σ) : Prop where
  scratch : w'.mem .scratch = w.mem .scratch
  outside : ∀ a, a < area.base ∨ area.base + area.len ≤ a → w'.mem .slot a = w.mem .slot a

theorem World.Touches.refl {σ : Type} (area : Span) (w : World σ) : w.Touches area w :=
  ⟨rfl, fun _ _ => rfl⟩

section Leaf

variable {σ : Type} (fs : Filesystem σ) (w : World σ) (opts : SessionOptions) (h : FuseInHeader)
  (body : Span) (r : Replier)

/-- A leaf dispatch in terms of its decoded body. -/
theorem run_dispatchLeaf :
    run (World.step fs) (dispatchLeaf opts h body r) w =
      run (World.step fs) (respond opts h r (decodeAt (w.mem .scratch) h body)) w := by
  rw [dispatchLeaf_eq, run_bind, run_decode]

/-- Each operation of a leaf dispatch reads its body or serves through its reply area. -/
theorem dispatchLeaf_leaf :
    ∀ e ∈ trace (World.step fs) (dispatchLeaf opts h body r) w, e.1.Leaf h body r := by
  have spec : (dispatchLeaf opts h body r).Ensures (Honest fun _ => True)
      (fun op _ => op.Leaf h body r) (Answered (fun _ => True) r) :=
    dispatchLeaf_ensures opts h body r
  exact (spec.sound (World.step fs) (honest_step fun _ _ _ _ => trivial) w).1

/-- The reply of a leaf dispatch has the shape of what the body decodes to. -/
theorem dispatchLeaf_replied {allowed : Errc → Prop} (errors : fs.ErrorsSatisfy allowed) :
    Replied allowed (decodeAt (w.mem .scratch) h body).shape r
      (run (World.step fs) (dispatchLeaf opts h body r) w).1 := by
  have serves : Serves allowed _ r (respond opts h r _) :=
    respond_serves opts h _ (decodeAt_known (w.mem .scratch) h body)
  rw [run_dispatchLeaf]
  exact (serves.sound (World.step fs) (honest_step errors) w).2

/-- A leaf dispatch changes no memory but its reply area. -/
theorem dispatchLeaf_touches :
    w.Touches r.span (run (World.step fs) (dispatchLeaf opts h body r) w).2 := by
  have spec : (dispatchLeaf opts h body r).Ensures (Honest fun _ => True)
      (fun op _ => op.Leaf h body r) (Answered (fun _ => True) r) :=
    dispatchLeaf_ensures opts h body r
  refine spec.preserves (World.step fs) (honest_step fun _ _ _ _ => trivial)
    (w.Touches r.span) ?_ w (.refl _ _)
  intro op v leaf touched
  cases op with
  | load | call | setInitDone => exact ⟨touched.scratch, touched.outside⟩
  | store blk span off bytes =>
    -- The body is only read; the one area that is written is the reply area.
    rcases leaf with ⟨_, _, load, _⟩ | ⟨rfl, rfl, inside⟩
    · cases load
    · refine ⟨?_, ?_⟩
      · rw [World.step, World.write_mem_scratch]
        exact touched.scratch
      · intro a outside
        rw [World.step, World.write_mem_same, Memory.write_outside _ _ _ _ (by omega)]
        exact touched.outside a outside

/-- The callbacks of a leaf dispatch: one if the body decodes to a request. -/
def Decoded.callbacks (opts : SessionOptions) (h : FuseInHeader) (r : Replier) (slot : Memory) :
    Decoded → List Callback
  | accept q => [q.callback opts h (slot.read r.out (q.lent r.cap))]
  | reject _ | ignore => []

theorem callbacks_dispatchLeaf :
    callbacks (trace (World.step fs) (dispatchLeaf opts h body r) w) =
      (decodeAt (w.mem .scratch) h body).callbacks opts h r (w.mem .slot) := by
  rw [dispatchLeaf_eq, trace_bind, callbacks_append, callbacks_decode, run_decode, List.nil_append]
  cases decodeAt (w.mem .scratch) h body with
  | accept q => exact callbacks_serve fs w r opts h q
  | reject e => rfl
  | ignore => rfl

end Leaf

end Fex
