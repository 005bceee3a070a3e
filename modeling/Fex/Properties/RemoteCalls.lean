import Fex.Properties.AttributeReplies
import Fex.Properties.DirentRoundTrip
import Fex.Properties.ForgetEquivalence
import Fex.Properties.SlotTransport

/-!
# Calls through the ring are calls of the daemon

For the kernel the library is a way to call a `Filesystem` in another process. `Call.perform` is
the call made on the daemon directly; the kernel lays the same call out in a slot, lets
`handle_one` run and decodes what it finds.

## Main result

`handleOne_calls`: whatever the call, the daemon ends in the same state as after the direct call,
and the kernel decodes the same result, changed only as `Call.carried` says: a negative validity
becomes zero, a negative entry of MKOBJX becomes a positive one, a count loses what does not fit
32 bits, OPENDIR gains `FOPEN_CACHE_DIR`, and a link target too long for the slot becomes EIO.
All other results, and all errors, arrive.

## Proof strategy

Decoding the body gives the request of the call (`Call.decodeAt_encode`). Serving a request is one
callback whose answer is turned into bytes; there is one rule for each kind of reply
(`returns_struct`, `returns_filled` and so on), and `Call.serve_returns` takes one of them for
each opcode. The transport adds nothing (`HoldsRequest.slotDispatch`, `published_publishes`).
-/
namespace Fex

open Foundation Program

/-! ### Calls and their results -/

/-- The calls of a file system other than INIT, with their arguments as the kernel sends them. -/
inductive Call where
  | args (a : WireArgs)
  | lookupRoot
  | forget (req : FuseForgetIn)
  | batchForget (dummy : UInt32) (items : List (NodeId × UInt64))
  | statx (req : FuseStatxIn)
  | openFile (req : FuseOpenIn)
  | release (req : FuseReleaseIn)
  | read (req : FuseReadIn)
  | readlink
  | statfs
  | fallocate (req : FuseFallocateIn)
  | opendir (req : FuseOpenIn)
  | releasedir (req : FuseReleaseIn)
  | readdir (req : FuseReadIn)
  | listxattr (req : FuseGetxattrIn)

inductive Result where
  | status
  | entry (e : EntryOut)
  | attributes (stat : StatxOut)
  | opened (o : OpenOut)
  | count (n : Nat)
  | statistics (stat : StatfsOut)
  | bytes (bs : Bytes)
  | entries (ds : List Dirent)

namespace Call

def opcode : Call → Opcode
  | args a => a.opcode
  | lookupRoot => .lookupRoot
  | forget _ => .forget
  | batchForget .. => .batchForget
  | statx _ => .statx
  | openFile _ => .openFile
  | release _ => .release
  | read _ => .read
  | readlink => .readlink
  | statfs => .statfs
  | fallocate _ => .fallocate
  | opendir _ => .opendir
  | releasedir _ => .releasedir
  | readdir _ => .readdir
  | listxattr _ => .listxattr

def WellFormed : Call → Prop
  | args a => a.WellFormed
  | batchForget _ items => items.length < 2 ^ 32
  | _ => True

/-- The body of the request. -/
def encode : Call → Bytes
  | args a => a.encode
  | lookupRoot | readlink | statfs => []
  | forget req => FuseForgetIn.codec.enc req
  | batchForget dummy items =>
    FuseBatchForgetIn.codec.enc { count := UInt32.ofNat items.length, dummy } ++ forgetArray items
  | statx req => FuseStatxIn.codec.enc req
  | openFile req | opendir req => FuseOpenIn.codec.enc req
  | release req | releasedir req => FuseReleaseIn.codec.enc req
  | read req | readdir req => FuseReadIn.codec.enc req
  | fallocate req => FuseFallocateIn.codec.enc req
  | listxattr req => FuseGetxattrIn.codec.enc req

/-- What decoding the body should give. -/
def request : Call → Request
  | args a => a.request
  | lookupRoot => .lookupRoot
  | forget req => .forget req.nlookup
  | batchForget _ items => .batchForget items
  | statx _ => .statx
  | openFile req => .openFile req.flags
  | release req => .release req
  | read req => .read req
  | readlink => .readlink
  | statfs => .statfs
  | fallocate req => .fallocate req
  | opendir _ => .opendir
  | releasedir req => .releasedir req.fh
  | readdir req => .readdir req
  | listxattr req => .listxattr req.size

section Perform

variable {σ : Type} (fs : Filesystem σ) (h : FuseInHeader) (buf : Bytes)

def returning {α : Type} (make : α → Result) (ran : Except Errc α × σ) : Except Errc Result × σ :=
  (make <$> ran.1, ran.2)

def returningStatus (ran : Except Errc Unit × σ) : Except Errc Result × σ :=
  returning (fun _ => .status) ran

/-- The part of the buffer the daemon says it has filled. -/
def returningFilled {span : Bytes} (ran : Filled span × σ) : Except Errc Result × σ :=
  ((fun n => .bytes (ran.1.2.1.take n)) <$> ran.1.1, ran.2)

/-- The size an attribute has, or as much of it as fits the buffer. -/
def returningXattr (size : UInt32) (ask : (span : Bytes) → Filled span × σ) :
    Except Errc Result × σ :=
  if size = 0 then ((.count ·) <$> (ask []).1.1, (ask []).2) else returningFilled (ask buf)

/-- The call made on the daemon directly, by the caller `h` describes and with the buffer `buf`
for what is read. -/
def perform : Call → σ → Except Errc Result × σ
  | args (.lookupx name), s => returning .entry (fs.lookupx (callerOf h) h.nodeid name s)
  | args (.unlink name), s => returningStatus (fs.unlink (callerOf h) h.nodeid name s)
  | args (.rmdir name), s => returningStatus (fs.rmdir (callerOf h) h.nodeid name s)
  | args (.rename2 req oldname newname), s =>
    returningStatus (fs.rename (callerOf h) h.nodeid oldname req.newdir newname req.flags s)
  | args (.link req name), s =>
    returningStatus (fs.link (callerOf h) req.oldnodeid h.nodeid name s)
  | args (.getxattr req name), s =>
    returningXattr buf req.size fun span => fs.getxattr (callerOf h) h.nodeid name span s
  | args (.setxattr req name value), s =>
    returningStatus (fs.setxattr (callerOf h) h.nodeid name value req.flags s)
  | args (.removexattr name), s => returningStatus (fs.removexattr (callerOf h) h.nodeid name s)
  | args (.write req data), s =>
    returning .count (fs.write (callerOf h) h.nodeid req.fh req.offset data s)
  | args (.setstatx req), s =>
    returning .attributes (fs.setstatx (callerOf h) h.nodeid req.fh
      (StatxOut.ofWire req.stat).settable s)
  | args (.mkobjx req name linkTarget), s =>
    returning .entry (fs.mkobjx (callerOf h) h.nodeid
      { stat :=
          { mode := req.stat.mode, uid := req.stat.uid, gid := req.stat.gid
            rdevMajor := req.stat.rdevMajor, rdevMinor := req.stat.rdevMinor, mask := req.stat.mask
            atime := attrTime req.stat.atime, btime := attrTime req.stat.btime
            ctime := attrTime req.stat.ctime, mtime := attrTime req.stat.mtime }
        flags := req.flags, name, linkTarget } s)
  | lookupRoot, s => returning .entry (fs.lookupRoot (callerOf h) s)
  | forget req, s => (.ok .status, fs.forget h.nodeid req.nlookup s)
  | batchForget _ items, s => (.ok .status, fs.forgetMulti items s)
  | statx _, s => returning .attributes (fs.statx (callerOf h) h.nodeid s)
  | openFile req, s => returning .opened (fs.openFile (callerOf h) h.nodeid req.flags s)
  | release req, s => returningStatus (fs.release (callerOf h) h.nodeid req.fh req.flags s)
  | read req, s => returningFilled (fs.read (callerOf h) h.nodeid req.fh req.offset buf s)
  | readlink, s => returning .bytes (fs.readlink (callerOf h) h.nodeid s)
  | statfs, s => returning .statistics (fs.statfs (callerOf h) h.nodeid s)
  | fallocate req, s => returningStatus
    (fs.fallocate (callerOf h) h.nodeid req.fh req.mode req.offset req.length s)
  | opendir _, s => returning .opened (fs.opendir (callerOf h) h.nodeid s)
  | releasedir req, s => returningStatus (fs.releasedir (callerOf h) h.nodeid req.fh s)
  | readdir req, s =>
    let script := fs.readdir (callerOf h) h.nodeid req.fh req.offset s
    let ran := (script.fill { buf }).1
    ((fun _ => .entries (script.accepted { buf })) <$> ran.1, ran.2)
  | listxattr req, s =>
    returningXattr buf req.size fun span => fs.listxattr (callerOf h) h.nodeid span s

end Perform

end Call

/-! ### What the kernel makes of a reply -/

/-- A validity as the kernel takes it, in nanoseconds. -/
def EntryOut.ofWire (out : FuseEntryxOut) : EntryOut where
  nodeid := out.nodeid
  entryValid := Int64.ofNat (out.entryValid.toNat * 1000000000 + out.entryValidNsec.toNat)
  negative := out.flags &&& fuseEntryxNegative ≠ 0

def OpenOut.ofWire (out : FuseOpenOut) : OpenOut := { fh := out.fh, openFlags := out.openFlags }

/-- The forms a reply can have. -/
inductive Form where
  | status
  | entry
  | attributes
  | opened
  | written
  | size
  | statistics
  | bytes
  | entries

/-- A reply that is one struct. -/
def wholeStruct {α : Type} (codec : Codec α) (bs : Bytes) : Option α :=
  if bs.length = codec.size then some (codec.dec bs) else none

namespace Form

def unpack : Form → Bytes → Option Result
  | status, bs => if bs = [] then some .status else none
  | entry, bs => (fun out => .entry (.ofWire out)) <$> wholeStruct FuseEntryxOut.codec bs
  | attributes, bs =>
    (fun out => .attributes (.ofWire out.stat)) <$> wholeStruct FuseStatxOut.codec bs
  | opened, bs => (fun out => .opened (.ofWire out)) <$> wholeStruct FuseOpenOut.codec bs
  | written, bs => (fun out => .count out.size.toNat) <$> wholeStruct FuseWriteOut.codec bs
  | size, bs => (fun out => .count out.size.toNat) <$> wholeStruct FuseGetxattrOut.codec bs
  | statistics, bs => (fun out => .statistics (.ofWire out)) <$> wholeStruct FuseKstatfs.codec bs
  | bytes, bs => some (.bytes bs)
  | entries, bs => (fun found => .entries (found.map Prod.fst)) <$> walkDirents bs

/-- A reply with its status: the error of the daemon, or the result. -/
def decodeReply (form : Form) (error : Int32) (payload : Bytes) : Option (Except Errc Result) :=
  if error = 0 then Except.ok <$> form.unpack payload else some (.error (-error))

end Form

namespace Call

/-- The form of the reply the kernel expects. -/
def form : Call → Form
  | args (.lookupx _) | args (.mkobjx ..) | lookupRoot => .entry
  | args (.setstatx _) | statx _ => .attributes
  | args (.write ..) => .written
  | args (.getxattr req _) | listxattr req => if req.size = 0 then .size else .bytes
  | openFile _ | opendir _ => .opened
  | statfs => .statistics
  | read _ | readlink => .bytes
  | readdir _ => .entries
  | args _ | forget _ | batchForget .. | release _ | fallocate _ | releasedir _ => .status

/-- What the wire makes of a result; `cap` is the room for the reply. -/
def carried (cap : Nat) : Call → Result → Except Errc Result
  | args (.mkobjx ..), .entry e =>
    .ok (.entry { e with entryValid := if e.entryValid < 0 then 0 else e.entryValid
                         negative := false })
  | _, .entry e =>
    .ok (.entry { e with entryValid := if e.entryValid < 0 then 0 else e.entryValid })
  | opendir _, .opened o => .ok (.opened { o with openFlags := o.openFlags ||| fopenCacheDir })
  | _, .count n => .ok (.count (n % 2 ^ 32))
  | readlink, .bytes bs => if bs.length ≤ cap then .ok (.bytes bs) else .error Errc.ioError
  | _, result => .ok result

/-- The results that are received as they are. -/
def Arrives (cap : Nat) : Call → Result → Prop
  | args (.mkobjx ..), .entry e => ¬e.entryValid < 0 ∧ e.negative = false
  | _, .entry e => ¬e.entryValid < 0
  | opendir _, .opened o => o.openFlags ||| fopenCacheDir = o.openFlags
  | _, .count n => n < 2 ^ 32
  | readlink, .bytes bs => bs.length ≤ cap
  | _, _ => True

end Call

/-! ### Decoding a call -/

theorem Call.opcode_ne_compound (c : Call) : c.opcode.code ≠ Opcode.compound.code := by
  cases c with
  | args a => cases a <;> (simp only [opcode, WireArgs.opcode]; decide)
  | _ => simp only [opcode]; decide

section Decoding

variable {m : Memory} {h : FuseInHeader} {body : Span}

/-- A body that begins with a struct and is read through `in_arg`. -/
theorem accepts_struct {α : Type} {codec : Codec α} {arg : α} (make : α → Request)
    (plain : h.totalExtlen = 0) (encoded : codec.enc arg <+: m.read body.base body.len) :
    (run (World.step (Filesystem.failing Errc.ioError))
      (Decoded.ofArgs make <$> inArg codec h body) ⟨fun _ => m, false, ()⟩).1 =
        .accept (make arg) := by
  apply ofArgs_accept
  rw [run_inArg_plain (Filesystem.failing Errc.ioError) ⟨fun _ => m, false, ()⟩ plain encoded]

theorem Call.decodeAt_encode (c : Call) (wellFormed : c.WellFormed)
    (code : h.opcode = c.opcode.code) (plain : h.totalExtlen = 0)
    (encoded : c.encode <+: m.read body.base body.len) :
    decodeAt m h body = .accept c.request := by
  have opcode := (Opcode.ofCode_eq_some_iff _ _).mpr code
  cases c with
  | args a => exact decode_encode _ rfl (extBytes_plain plain) a wellFormed code encoded
  | batchForget dummy items => exact decodeAt_batch wellFormed ⟨code, plain, dummy, encoded⟩
  | lookupRoot | readlink | statfs | opendir =>
    -- These handlers do not look at the body.
    rw [decodeAt, decode, opcode]
    rfl
  | forget req =>
    rw [decodeAt, decode, opcode]
    exact accepts_struct (fun req => .forget req.nlookup) plain encoded
  | statx req =>
    rw [decodeAt, decode, opcode]
    exact accepts_struct (fun _ => .statx) plain encoded
  | openFile req =>
    rw [decodeAt, decode, opcode]
    exact accepts_struct (fun req => .openFile req.flags) plain encoded
  | release req =>
    rw [decodeAt, decode, opcode]
    exact accepts_struct .release plain encoded
  | read req =>
    rw [decodeAt, decode, opcode]
    exact accepts_struct .read plain encoded
  | fallocate req =>
    rw [decodeAt, decode, opcode]
    exact accepts_struct .fallocate plain encoded
  | releasedir req =>
    rw [decodeAt, decode, opcode]
    exact accepts_struct (fun req => .releasedir req.fh) plain encoded
  | readdir req =>
    rw [decodeAt, decode, opcode]
    exact accepts_struct .readdir plain encoded
  | listxattr req =>
    rw [decodeAt, decode, opcode]
    exact accepts_struct (fun req => .listxattr req.size) plain encoded

end Decoding

/-! ### Packing and unpacking -/

theorem wholeStruct_enc {α : Type} (codec : Codec α) (pod : α) :
    wholeStruct codec (codec.enc pod) = some pod := by
  rw [wholeStruct, if_pos (codec.length_enc pod), codec.dec_enc]

/-- Splitting a duration and putting it together again cuts it at zero. -/
theorem ofNat_splitDuration (d : Int64) :
    Int64.ofNat ((splitDuration d).1.toNat * 1000000000 + (splitDuration d).2.toNat) =
      if d < 0 then 0 else d := by
  have whole := (splitDuration_isDuration d).1
  rw [← Int64.ofInt_eq_ofNat, Nat.cast_add, Nat.cast_mul]
  rw [show ((1000000000 : Nat) : Int) = 1000000000 from rfl, whole]
  by_cases negative : d < 0
  · have below : d.toInt < 0 := Int64.lt_iff_toInt_lt.mp negative
    rw [if_pos negative, max_eq_right below.le]
    rfl
  · have positive : 0 ≤ d.toInt :=
      Int.not_lt.mp fun below => negative (Int64.lt_iff_toInt_lt.mpr below)
    rw [if_neg negative, max_eq_left positive, Int64.ofInt_toInt]

/-- An entry as it is received. -/
theorem received_entry (e : EntryOut) :
    (.ok (.entry { e with entryValid := if e.entryValid < 0 then 0 else e.entryValid }) :
      Except Errc Result) = .ok (.entry (.ofWire (entryxOut e))) := by
  have negative : decide ((entryxOut e).flags &&& fuseEntryxNegative ≠ 0) = e.negative := by
    cases is : e.negative with
    | true => simp only [entryxOut, is]; decide
    | false => simp only [entryxOut, is]; decide
  rw [EntryOut.ofWire, negative]
  simp only [entryxOut, ofNat_splitDuration]

theorem received_count (n : Nat) :
    (.ok (.count (n % 2 ^ 32)) : Except Errc Result) = .ok (.count (UInt32.ofNat n).toNat) := by
  rw [UInt32.toNat_ofNat']

/-- A validity is kept just when it is not negative. -/
theorem clipped_eq_iff (d : Int64) : (if d < 0 then 0 else d) = d ↔ ¬d < 0 := by
  split
  next negative =>
    refine iff_of_false ?_ (not_not_intro negative)
    rintro rfl
    exact absurd negative (by decide)
  next positive => exact iff_of_true rfl positive

theorem Call.carried_eq_ok_iff (cap : Nat) (c : Call) (result : Result) :
    c.carried cap result = .ok result ↔ c.Arrives cap result := by
  cases result with
  | entry e =>
    obtain ⟨nodeid, valid, negative⟩ := e
    cases c with
    | args a =>
      cases a <;> simp only [carried, Arrives, Except.ok.injEq, Result.entry.injEq,
        EntryOut.mk.injEq, clipped_eq_iff, true_and, and_true, @eq_comm Bool false]
    | _ =>
      simp only [carried, Arrives, Except.ok.injEq, Result.entry.injEq, EntryOut.mk.injEq,
        clipped_eq_iff, true_and, and_true]
  | opened o =>
    obtain ⟨fh, flags⟩ := o
    cases c <;> simp [carried, Arrives]
  | count | bytes | status | attributes | statistics | entries =>
    cases c <;> simp [carried, Arrives]

/-! ### Serving a call -/

/-- The reply decodes to the outcome of a call, and the daemon is left as the call leaves it. -/
structure Form.Returns {σ : Type} (form : Form) (r : Replier) (done : Replier × World σ)
    (ran : Except Errc Result × σ) : Prop where
  reply : form.decodeReply done.1.negErr ((done.2.mem .slot).read r.out done.1.effective) =
    some ran.1
  state : done.2.fs = ran.2

section Serving

variable {σ : Type} {fs : Filesystem σ} {form : Form} {r : Replier} {w : World σ}

theorem returns_error {e : Errc} (nonzero : e ≠ 0) :
    form.Returns r (replyError r e, w) (.error e, w.fs) := by
  refine ⟨?_, rfl⟩
  have failed : negErrno e ≠ 0 := fun zero => nonzero (negErrno_eq_zero.mp zero)
  show form.decodeReply (negErrno e) _ = _
  rw [Form.decodeReply, if_neg failed, negErrno, Int32.neg_neg]

/-- A reply of `len` bytes that are there. -/
theorem returns_data {len : Nat} {rv : Except Errc Result}
    (decodes : form.decodeReply 0 ((w.mem .slot).read r.out len) = some rv) :
    form.Returns r ({ r with negErr := 0, len := len }, w) (rv, w.fs) :=
  ⟨decodes, rfl⟩

/-- A reply that is one struct, seen through `view`. -/
theorem returns_struct {α : Type} {codec : Codec α} {pod : α} {view : α → Result}
    {rv : Except Errc Result} (room : codec.size ≤ r.cap)
    (unpacks : ∀ bs, form.unpack bs = view <$> wholeStruct codec bs) (is : rv = .ok (view pod)) :
    form.Returns r (run (World.step fs) (replyPod codec r pod) w) (rv, w.fs) := by
  have stored : ((w.write .slot r.out (codec.enc pod)).mem .slot).read r.out codec.size =
      codec.enc pod := by
    rw [World.write_mem_same, ← codec.length_enc pod, Memory.read_write_same]
  rw [run_replyPod fs w codec r pod room, is]
  refine returns_data (w := w.write .slot r.out (codec.enc pod)) ?_
  rw [stored, Form.decodeReply, if_pos rfl, unpacks, wholeStruct_enc]
  rfl

/-- A string is replied whole, or the call fails. -/
theorem returns_payload (target : Bytes) :
    Form.bytes.Returns r (run (World.step fs) (replyPayload r target) w)
      (Call.readlink.carried r.cap (.bytes target), w.fs) := by
  unfold replyPayload Call.carried
  dsimp only
  by_cases fits : target.length ≤ r.cap
  · rw [if_neg (Nat.not_lt.mpr fits), if_pos fits]
    have same := Memory.read_write_same (w.mem .slot) r.out target
    -- An empty string is not copied.
    cases target with
    | nil => exact returns_data rfl
    | cons b bs =>
      refine returns_data (w := w.write .slot r.out (b :: bs)) ?_
      rw [World.write_mem_same, same]
      rfl
  · rw [if_pos (Nat.not_le.mp fits), if_neg fits]
    exact returns_error (by decide)

section Answers

variable (errors : fs.ErrorsSatisfy (· ≠ 0))

include errors

/-- A callback whose answer is packed. -/
theorem returns_answer {α : Type} (cb : Callback) (answer : cb.Answer → Except Errc α)
    (reported : ∀ rv, Callback.Answer.error? cb rv = Callback.Answer.error?.errorOf (answer rv))
    {pack : α → Handler Replier} {make : α → Result} {carried : Result → Except Errc Result}
    (packs : ∀ value (w' : World σ),
      form.Returns r (run (World.step fs) (pack value) w') (carried (make value), w'.fs)) :
    form.Returns r
      (run (World.step fs) (call cb >>= fun rv => withAnswer r (answer rv) pack) w)
      ((make <$> answer (fs.perform cb w.fs).1) >>= carried, (fs.perform cb w.fs).2) := by
  have failed := errors cb w.fs
  rw [reported] at failed
  rw [run_bind, run_call]
  cases is : answer (fs.perform cb w.fs).1 with
  | error e => exact returns_error (failed e (congrArg _ is))
  | ok value => exact packs value _

theorem returns_status (cb : Callback) (answer : cb.Answer → Except Errc Unit)
    (reported : ∀ rv, Callback.Answer.error? cb rv = Callback.Answer.error?.errorOf (answer rv))
    {carried : Result → Except Errc Result} (plain : carried .status = .ok .status) :
    Form.status.Returns r
      (run (World.step fs) (call cb >>= fun rv => replyStatus r (answer rv)) w)
      (((fun _ => .status) <$> answer (fs.perform cb w.fs).1) >>= carried,
        (fs.perform cb w.fs).2) := by
  refine returns_answer errors cb answer reported fun _ w' => ?_
  rw [plain]
  exact returns_data rfl

/-- A part of the reply area that is lent to a callback and replied as far as it says. -/
theorem returns_filled (n : Nat) (cb : Bytes → Callback)
    (verdict : (span : Bytes) → (cb span).Answer → Except Errc Nat)
    (filled : (span : Bytes) → (cb span).Answer → Bytes)
    (length : ∀ span rv, (filled span rv).length = span.length)
    (reported : ∀ span rv, Callback.Answer.error? (cb span) rv =
      Callback.Answer.error?.errorOf (verdict span rv))
    (carried : Result → Except Errc Result)
    (plain : ∀ bs, carried (.bytes bs) = .ok (.bytes bs)) :
    let span := (w.mem .slot).read r.out (min n r.cap)
    let ran := fs.perform (cb span) w.fs
    Form.bytes.Returns r
      (run (World.step fs) (do
        let span ← load .slot r.span 0 (min n r.cap)
        let answer ← call (cb span.1)
        store .slot r.span 0 (filled span.1 answer)
        replyFilled r (min n r.cap) (verdict span.1 answer)) w)
      (((fun k => .bytes ((filled span ran.1).take k)) <$> verdict span ran.1) >>= carried,
        ran.2) := by
  intro span ran
  let w' := ({ w with fs := ran.2 }).write .slot r.out (filled span ran.1)
  change Form.bytes.Returns r
    (run (World.step fs) (replyFilled r (min n r.cap) (verdict span ran.1)) w') _
  have failed := errors (cb span) w.fs
  rw [reported] at failed
  cases is : verdict span ran.1 with
  | error e => exact returns_error (w := w') (failed e (congrArg _ is))
  | ok k =>
    have size : (filled span ran.1).length = min n r.cap := by
      rw [length]
      exact Memory.length_read ..
    have inside : min k (min n r.cap) ≤ (filled span ran.1).length := by omega
    -- The daemon may report more than it was lent; the length is cut, and so is the part.
    have part : (w'.mem .slot).read r.out (min k (min n r.cap)) = (filled span ran.1).take k := by
      rw [World.write_mem_same, ← Memory.take_read _ _ _ _ inside, Memory.read_write_same, ← size,
        ← List.take_eq_take_min]
    change Form.bytes.Returns r _ (carried (.bytes ((filled span ran.1).take k)), ran.2)
    rw [plain]
    refine returns_data (w := w') ?_
    rw [part]
    rfl

/-- GETXATTR and LISTXATTR: a size query, or a part of the reply area. -/
theorem returns_xattr (size : UInt32) (cb : Bytes → Callback)
    (verdict : (span : Bytes) → (cb span).Answer → Except Errc Nat)
    (filled : (span : Bytes) → (cb span).Answer → Bytes)
    (length : ∀ span rv, (filled span rv).length = span.length)
    (reported : ∀ span rv, Callback.Answer.error? (cb span) rv =
      Callback.Answer.error?.errorOf (verdict span rv))
    (carried : Result → Except Errc Result)
    (plain : ∀ bs, carried (.bytes bs) = .ok (.bytes bs))
    (counts : ∀ n, carried (.count n) = .ok (.count (n % 2 ^ 32)))
    (room : FuseGetxattrOut.codec.size ≤ r.cap) {span : Bytes}
    (part : size ≠ 0 → span = (w.mem .slot).read r.out (min size.toNat r.cap)) :
    let asked := fs.perform (cb []) w.fs
    let lent := fs.perform (cb span) w.fs
    let ran := if size = 0 then ((.count ·) <$> verdict [] asked.1, asked.2)
      else ((fun k => .bytes ((filled span lent.1).take k)) <$> verdict span lent.1, lent.2)
    (if size = 0 then Form.size else .bytes).Returns r
      (run (World.step fs)
        (if size = 0 then call (cb []) >>= fun rv => replySize r (verdict [] rv)
        else do
          let span ← load .slot r.span 0 (min size.toNat r.cap)
          let answer ← call (cb span.1)
          store .slot r.span 0 (filled span.1 answer)
          replyFilled r (min size.toNat r.cap) (verdict span.1 answer)) w)
      (ran.1 >>= carried, ran.2) := by
  by_cases query : size = 0
  · simp only [if_pos query]
    refine returns_answer errors (cb []) (verdict []) (reported []) fun n w' => ?_
    refine returns_struct room (fun _ => rfl) ?_
    rw [counts]
    exact received_count n
  · obtain rfl := part query
    simp only [if_neg query]
    exact returns_filled errors size.toNat cb verdict filled length reported carried plain

end Answers

/-- What fits a buffer of less than 4 GiB has names the records can hold. -/
theorem accepted_short {α : Type} (script : DirentScript α) {buf : Bytes}
    (small : buf.length < 2 ^ 32) (d : Dirent) (member : d ∈ script.accepted { buf }) :
    d.name.length < 2 ^ 32 := by
  have inside := script.accepted_inside buf
  have record := DirentWriter.length_record d
  have fits := DirentWriter.le_padded (FuseDirent.codec.size + d.name.length)
  obtain ⟨before, after, is⟩ := List.append_of_mem member
  rw [is, List.flatMap_append, List.flatMap_cons, List.length_append, List.length_append,
    record] at inside
  omega

theorem serveReaddir_returns (errors : fs.ErrorsSatisfy (· ≠ 0)) (h : FuseInHeader)
    (req : FuseReadIn) :
    let ran := (Call.readdir req).perform fs h (readdirBuf w r req) w.fs
    Form.entries.Returns r (run (World.step fs) (serveReaddir h r req) w)
      (ran.1 >>= (Call.readdir req).carried r.cap, ran.2) := by
  let script := readdirScript fs w h req
  let buf := readdirBuf w r req
  let filled := script.fill { buf }
  refine ⟨?_, serveReaddir_fs ..⟩
  change Form.entries.decodeReply _ _ = some
    (((fun _ => .entries (script.accepted { buf })) <$> filled.1.1) >>=
      (Call.readdir req).carried r.cap)
  cases is : filled.1.1 with
  | error e =>
    have failed := errors (.readdir (makeCtx h) h.nodeid req.fh req.offset { buf }) w.fs e
      (congrArg Callback.Answer.error?.errorOf is)
    have ran := run_serveReaddir fs w h r req
    dsimp only at ran
    rw [ran, is]
    exact (returns_error failed).reply
  | ok done =>
    obtain ⟨success, records⟩ := serveReaddir_replies fs w h r req is
    have small : buf.length < 2 ^ 32 := by
      have bound := req.size.toNat_lt
      have length : buf.length = min req.size.toNat r.cap := Memory.length_read ..
      omega
    have walks := (walkDirents_records_iff (script.accepted { buf })).mpr
      (accepted_short script small)
    have found : ((script.accepted { buf }).map fun d => (d, DirentWriter.padding d)).map Prod.fst =
        script.accepted { buf } := by
      simp [Function.comp_def]
    rw [success, Form.decodeReply, if_pos rfl, Replier.effective, if_neg (by simp [success]),
      records, Form.unpack, walks, Option.map_eq_map, Option.map_eq_map, Option.map_some, found]
    rfl

/-- Serving the request of a call is making the call. -/
theorem Call.serve_returns (opts : SessionOptions) (h : FuseInHeader)
    (errors : fs.ErrorsSatisfy (· ≠ 0)) (c : Call) (room : FuseStatxOut.codec.size ≤ r.cap) :
    let ran := c.perform fs h ((w.mem .slot).read r.out (c.request.lent r.cap)) w.fs
    c.form.Returns r (run (World.step fs) (serve opts h r c.request) w)
      (ran.1 >>= c.carried r.cap, ran.2) := by
  have fits {n : Nat} (smaller : n ≤ FuseStatxOut.codec.size) : n ≤ r.cap := smaller.trans room
  cases c with
  | args a =>
    cases a with
    | unlink name =>
      exact returns_status errors (.unlink (makeCtx h) h.nodeid name) id (fun _ => rfl) rfl
    | rmdir name =>
      exact returns_status errors (.rmdir (makeCtx h) h.nodeid name) id (fun _ => rfl) rfl
    | rename2 req oldname newname =>
      exact returns_status errors
        (.rename (makeCtx h) h.nodeid oldname req.newdir newname req.flags) id (fun _ => rfl) rfl
    | link req name =>
      exact returns_status errors (.link (makeCtx h) req.oldnodeid h.nodeid name) id
        (fun _ => rfl) rfl
    | setxattr req name value =>
      exact returns_status errors (.setxattr (makeCtx h) h.nodeid name value req.flags) id
        (fun _ => rfl) rfl
    | removexattr name =>
      exact returns_status errors (.removexattr (makeCtx h) h.nodeid name) id (fun _ => rfl) rfl
    | lookupx name =>
      refine returns_answer errors (.lookupx (makeCtx h) h.nodeid name) id (fun _ => rfl) ?_
      exact fun entry w' => returns_struct (fits (by decide)) (fun _ => rfl) (received_entry entry)
    | mkobjx req name linkTarget =>
      refine returns_answer errors (.mkobjx (makeCtx h) h.nodeid _) id (fun _ => rfl) ?_
      -- The reply is that of a positive entry, whatever the daemon says.
      exact fun entry w' => returns_struct (fits (by decide)) (fun _ => rfl)
        (received_entry { entry with negative := false })
    | setstatx req =>
      refine returns_answer errors (.setstatx (makeCtx h) h.nodeid req.fh _) id (fun _ => rfl) ?_
      exact fun stat w' => returns_struct (fits (by decide)) (fun _ => rfl) rfl
    | write req data =>
      refine returns_answer errors (.write (makeCtx h) h.nodeid req.fh req.offset data) id
        (fun _ => rfl) ?_
      exact fun n w' => returns_struct (fits (by decide)) (fun _ => rfl) (received_count n)
    | getxattr req name =>
      exact returns_xattr errors req.size (fun span => .getxattr (makeCtx h) h.nodeid name span)
        (fun _ rv => rv.1) (fun _ rv => rv.2.1) (fun _ rv => rv.2.2) (fun _ _ => rfl)
        ((args (.getxattr req name)).carried r.cap) (fun _ => rfl) (fun _ => rfl)
        (fits (by decide)) fun nonzero => congrArg _ (if_neg nonzero)
  | lookupRoot =>
    refine returns_answer errors (.lookupRoot (makeCtx h)) id (fun _ => rfl) ?_
    exact fun entry w' => returns_struct (fits (by decide)) (fun _ => rfl) (received_entry entry)
  | statx req =>
    refine returns_answer errors (.statx (makeCtx h) h.nodeid) id (fun _ => rfl) ?_
    exact fun stat w' => returns_struct (fits (by decide)) (fun _ => rfl) rfl
  | openFile req =>
    refine returns_answer errors (.openFile (makeCtx h) h.nodeid req.flags) id (fun _ => rfl) ?_
    exact fun opened w' => returns_struct (fits (by decide)) (fun _ => rfl) rfl
  | opendir req =>
    refine returns_answer errors (.opendir (makeCtx h) h.nodeid) id (fun _ => rfl) ?_
    exact fun opened w' => returns_struct (fits (by decide)) (fun _ => rfl) rfl
  | statfs =>
    refine returns_answer errors (.statfs (makeCtx h) h.nodeid) id (fun _ => rfl) ?_
    exact fun stat w' => returns_struct (fits (by decide)) (fun _ => rfl) rfl
  | readlink =>
    exact returns_answer errors (.readlink (makeCtx h) h.nodeid) id (fun _ => rfl)
      fun target w' => returns_payload target
  | forget req => exact returns_data (w := { w with fs := _ }) rfl
  | batchForget dummy items => exact returns_data (w := { w with fs := _ }) rfl
  | release req =>
    exact returns_status errors (.release (makeCtx h) h.nodeid req.fh req.flags) id
      (fun _ => rfl) rfl
  | fallocate req =>
    exact returns_status errors
      (.fallocate (makeCtx h) h.nodeid req.fh req.mode req.offset req.length) id (fun _ => rfl) rfl
  | releasedir req =>
    exact returns_status errors (.releasedir (makeCtx h) h.nodeid req.fh) id (fun _ => rfl) rfl
  | read req =>
    exact returns_filled errors req.size.toNat
      (fun span => .read (makeCtx h) h.nodeid req.fh req.offset span)
      (fun _ rv => rv.1) (fun _ rv => rv.2.1) (fun _ rv => rv.2.2) (fun _ _ => rfl)
      ((read req).carried r.cap) fun _ => rfl
  | readdir req =>
    exact serveReaddir_returns errors h req
  | listxattr req =>
    exact returns_xattr errors req.size (fun span => .listxattr (makeCtx h) h.nodeid span)
      (fun _ rv => rv.1) (fun _ rv => rv.2.1) (fun _ rv => rv.2.2) (fun _ _ => rfl)
      ((listxattr req).carried r.cap) (fun _ => rfl) (fun _ => rfl) (fits (by decide))
      fun nonzero => congrArg _ (if_neg nonzero)

end Serving

/-! ### The call in a slot -/

/-- The kernel has laid out the call `c` in the slot, in any number of arguments. -/
structure SendsCall {σ : Type} (payloadBytes : Nat) (w : World σ) (h : FuseInHeader) (c : Call) :
    Prop where
  wellFormed : c.WellFormed
  opcode : h.opcode = c.opcode.code
  plain : h.totalExtlen = 0
  layout : ∃ first rest, HoldsRequest w h first rest ∧ KernelSizes payloadBytes h first rest ∧
    c.encode <+: (first :: rest).flatten

/-- The call as the daemon would see it without the ring: the buffer is the part of the slot that
is lent to it. -/
def Call.direct {σ : Type} (c : Call) (fs : Filesystem σ) (payloadBytes : Nat) (h : FuseInHeader)
    (w : World σ) : Except Errc Result × σ :=
  c.perform fs h ((w.mem .slot).read uringReqHeaderSize (c.request.lent payloadBytes)) w.fs

/-- The reply in the slot, as the kernel takes it. -/
def Call.replyIn {σ : Type} (c : Call) (w : World σ) : Option (Except Errc Result) :=
  c.form.decodeReply (slotOutHeader w).error
    ((w.mem .slot).read uringReqHeaderSize (slotEnt w).payloadSz.toNat)

/-- The slot holds the reply to the call, and the daemon is as it left it. -/
structure CompletesCall {σ : Type} (payloadBytes : Nat) (h : FuseInHeader) (c : Call)
    (ran : Except Errc Result × σ) (w : World σ) : Prop where
  unique : (slotOutHeader w).unique = h.unique
  reply : c.replyIn w = some (ran.1 >>= c.carried payloadBytes)
  state : w.fs = ran.2

/-- Handling the slot is making the call. -/
theorem handleOne_completes {σ : Type} (fs : Filesystem σ) (errors : fs.ErrorsSatisfy (· ≠ 0))
    (opts : SessionOptions) (payloadBytes : Nat) (room : FuseStatxOut.codec.size ≤ payloadBytes)
    (bounded : payloadBytes + FuseOutHeader.codec.size < 2 ^ 32) (e : Entry)
    (allocated : e.Allocated payloadBytes) (w : World σ) (h : FuseInHeader) (c : Call)
    (sends : SendsCall payloadBytes w h c) :
    CompletesCall payloadBytes h c (c.direct fs payloadBytes h w)
      (run (World.step fs) (handleOne opts payloadBytes e) w).2 := by
  obtain ⟨first, rest, laid, sizes, encoded⟩ := sends.layout
  let r : Replier := { out := uringReqHeaderSize, cap := payloadBytes, unique := h.unique }
  let body := (first :: rest).flatten
  have slot : (assembled w).mem .slot = w.mem .slot := by
    simp only [assembled, World.write_mem_slot]
  -- The body decodes to the request of the call.
  have decoded : decodeAt ((assembled w).mem .scratch) h ⟨0, body.length⟩ = .accept c.request := by
    refine c.decodeAt_encode sends.wellFormed sends.opcode sends.plain ?_
    rw [laid.body sizes]
    exact encoded
  have dispatched : run (World.step fs) (slotDispatch w opts payloadBytes) (assembled w) =
      run (World.step fs) (serve opts h r c.request) (assembled w) := by
    rw [laid.slotDispatch sizes, requestDispatch,
      dispatch_leaf _ _ _ _ (decodeAt_leaf decoded), run_dispatchLeaf, decoded]
    rfl
  let done := run (World.step fs) (serve opts h r c.request) (assembled w)
  have served : c.form.Returns r done
      ((c.direct fs payloadBytes h (assembled w)).1 >>= c.carried payloadBytes,
        (c.direct fs payloadBytes h (assembled w)).2) :=
    c.serve_returns opts h errors room
  have same : c.direct fs payloadBytes h (assembled w) = c.direct fs payloadBytes h w := by
    rw [Call.direct, slot]
    rfl
  rw [same] at served
  -- Its reply fits the slot and is published as it is.
  have serves : Serves (· ≠ 0) _ r (serve opts h r c.request) := serve_serves opts h c.request
  have answered := (serves.sound (World.step fs) (honest_step errors) (assembled w)).2.toAnswered
  have fits : done.1.effective ≤ payloadBytes := by
    have length : done.1.len ≤ payloadBytes := answered.fits
    unfold Replier.effective
    split <;> omega
  have published := published_publishes done.2 done.1 (by omega)
  rw [(handleOne_dispatches fs w opts payloadBytes e (laid.not_oversize sizes allocated)).1,
    dispatched]
  refine ⟨published.unique.trans answered.unique, ?_, served.state⟩
  rw [Call.replyIn, published.error, published.payloadSz, published.payload]
  exact served.reply

/-- A call through the ring is the direct call, but for what the wire does not carry; an error or
a result that arrives is what the kernel decodes. -/
theorem handleOne_calls {σ : Type} (fs : Filesystem σ) (errors : fs.ErrorsSatisfy (· ≠ 0))
    (opts : SessionOptions) (payloadBytes : Nat) (room : FuseStatxOut.codec.size ≤ payloadBytes)
    (bounded : payloadBytes + FuseOutHeader.codec.size < 2 ^ 32) (e : Entry)
    (allocated : e.Allocated payloadBytes) (w : World σ) (h : FuseInHeader) (c : Call)
    (sends : SendsCall payloadBytes w h c) :
    let ran := c.direct fs payloadBytes h w
    let final := (run (World.step fs) (handleOne opts payloadBytes e) w).2
    CompletesCall payloadBytes h c ran final ∧
      ((∀ result, ran.1 = .ok result → c.Arrives payloadBytes result) →
        c.replyIn final = some ran.1) := by
  intro ran final
  have completes := handleOne_completes fs errors opts payloadBytes room bounded e allocated w h c
    sends
  refine ⟨completes, fun arrives => completes.reply.trans ?_⟩
  change some (ran.1 >>= c.carried payloadBytes) = some ran.1
  cases is : ran.1 with
  | error e => rfl
  | ok result => exact congrArg some ((c.carried_eq_ok_iff payloadBytes result).mpr (arrives _ is))

theorem sendsCall_lookup : SendsCall 4096 splitSlot splitLookup (.args (.lookupx [97, 98])) where
  wellFormed := show (0 : UInt8) ∉ [97, 98] by decide
  opcode := rfl
  plain := rfl
  layout := ⟨[97, 98], [[0]], splitSlot_holds, splitSlot_sizes, List.prefix_rfl⟩

/-- The name in two arguments of the slot, and the node the daemon knows it by. -/
theorem handleOne_calls_lookup :
    (Call.args (.lookupx [97, 98])).replyIn
      (run (World.step (Filesystem.leading 9)) (handleOne {} 4096 (Entry.start 4096)) splitSlot).2 =
        some (.ok (.entry { nodeid := 9 })) := by
  have called := handleOne_calls (Filesystem.leading 9)
    (Filesystem.leading_errorsSatisfy 9 (by decide)) {} 4096 (by decide) (by decide)
    (Entry.start 4096) rfl _ _ _ sendsCall_lookup
  refine called.2 ?_
  rintro result ⟨⟩
  show ¬(0 : Int64) < 0
  decide

end Fex
