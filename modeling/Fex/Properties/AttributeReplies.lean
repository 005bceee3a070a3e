import Fex.Properties.RequestRoundTrip

/-!
# Attributes and entries on the wire

## Main result

`attributes_round_trip`: the structs in the replies to STATX, SETSTATX, LOOKUPX, LOOKUP_ROOT
and STATFS hold every field the daemon returned and zeros elsewhere; a validity is the
daemon's duration in seconds and nanoseconds, cut at zero; and the attributes of a reply that
come back as the argument of SETSTATX are what the daemon is called with.

## Proof strategy

A struct that was replied is found again in the reply area (`replyStruct_replyPod`). What is
left is to read the fields off the structs the handlers fill, for which the wire form and the
public types are compared by `StatxOut.ofWire` and `StatfsOut.ofWire`, not by the handlers'
own conversions.
-/
namespace Fex

open Foundation Program

/-! ### The kernel's view of the replies -/

/-- The struct at the head of the reply area. -/
def replyStruct {σ α : Type} (codec : Codec α) (r : Replier) (w : World σ) : α :=
  codec.dec ((w.mem .slot).read r.out codec.size)

/-- Success with a struct that has the property. -/
def RepliesWith {σ α : Type} (codec : Codec α) (r : Replier) (done : Replier × World σ)
    (property : α → Prop) : Prop :=
  done.1.negErr = 0 ∧ done.1.len = codec.size ∧ property (replyStruct codec r done.2)

def StatxOut.ofWire (s : FuseStatx) : StatxOut :=
  { mask := s.mask, blksize := s.blksize, attributes := s.attributes, nlink := s.nlink
    uid := s.uid, gid := s.gid, mode := s.mode, ino := s.ino, size := s.size, blocks := s.blocks
    attributesMask := s.attributesMask, atime := attrTime s.atime, btime := attrTime s.btime
    ctime := attrTime s.ctime, mtime := attrTime s.mtime, rdevMajor := s.rdevMajor
    rdevMinor := s.rdevMinor, devMajor := s.devMajor, devMinor := s.devMinor }

def StatfsOut.ofWire (s : FuseKstatfs) : StatfsOut :=
  { blocks := s.blocks, bfree := s.bfree, bavail := s.bavail, files := s.files, ffree := s.ffree
    bsize := s.bsize, namelen := s.namelen, frsize := s.frsize }

/-- The attributes SETSTATX can change. -/
def StatxOut.settable (stat : StatxOut) : SetStatxIn :=
  { mask := stat.mask, mode := stat.mode, uid := stat.uid, gid := stat.gid, size := stat.size
    atime := stat.atime, ctime := stat.ctime, mtime := stat.mtime }

/-- Every reserved or spare byte is zero. -/
structure FuseStatx.Clean (s : FuseStatx) : Prop where
  spare0 : s.spare0 = 0
  atime : s.atime.reserved = 0
  btime : s.btime.reserved = 0
  ctime : s.ctime.reserved = 0
  mtime : s.mtime.reserved = 0
  spare2 : s.spare2 = .zero 112

/-- Seconds and nanoseconds of the duration `d`, which counts as zero if it is negative. -/
def IsDuration (sec : UInt64) (nsec : UInt32) (d : Int64) : Prop :=
  (sec.toNat : Int) * 1000000000 + nsec.toNat = max d.toInt 0 ∧ nsec.toNat < 1000000000

structure StatxReply (stat : StatxOut) (out : FuseStatxOut) : Prop where
  fields : StatxOut.ofWire out.stat = stat
  valid : IsDuration out.attrValid out.attrValidNsec oneSecond
  clean : out.stat.Clean
  flags : out.flags = 0
  spare : out.spare = .zero 16

structure EntryReply (entry : EntryOut) (out : FuseEntryxOut) : Prop where
  nodeid : out.nodeid = entry.nodeid
  valid : IsDuration out.entryValid out.entryValidNsec entry.entryValid
  negative : out.flags = if entry.negative then fuseEntryxNegative else 0
  spare : out.spare = 0

structure StatfsReply (stat : StatfsOut) (out : FuseKstatfs) : Prop where
  fields : StatfsOut.ofWire out = stat
  padding : out.padding = 0
  spare : out.spare = .zero 24

/-! ### Packing -/

/-- `split_duration` over the whole range of the counter. -/
theorem splitDuration_isDuration (d : Int64) :
    IsDuration (splitDuration d).1 (splitDuration d).2 d := by
  have upper := d.toInt_lt
  unfold splitDuration
  split
  next negative =>
    -- Negative durations are sent as zero.
    refine ⟨?_, by decide⟩
    rw [max_eq_right (by omega)]
    rfl
  next positive =>
    -- A counter of 63 bits has far fewer than 2^64 seconds, so neither part is cut off.
    have nsec : (d.toInt % 1000000000).toNat < 1000000000 := by omega
    have sec : (d.toInt / 1000000000).toNat < 2 ^ 64 := by omega
    simp only [IsDuration, UInt64.toNat_ofNat_of_lt' sec,
      UInt32.toNat_ofNat_of_lt' (Nat.lt_trans nsec (by decide : 1000000000 < 2 ^ 32))]
    omega

theorem packStatx_reply (stat : StatxOut) : StatxReply stat (packStatx stat oneSecond) where
  fields := rfl
  valid := splitDuration_isDuration oneSecond
  clean := ⟨rfl, rfl, rfl, rfl, rfl, rfl⟩
  flags := rfl
  spare := rfl

theorem entryxOut_reply (entry : EntryOut) : EntryReply entry (entryxOut entry) where
  nodeid := rfl
  valid := splitDuration_isDuration entry.entryValid
  negative := rfl
  spare := rfl

/-! ### Requests -/

section Requests

variable {σ : Type} (fs : Filesystem σ) (opts : SessionOptions) (h : FuseInHeader) (body : Span)
  (r : Replier) (w : World σ)

/-- What `reply_pod` stored is what the kernel finds. -/
theorem replyStruct_replyPod {α : Type} (codec : Codec α) (pod : α) (room : codec.size ≤ r.cap)
    {property : α → Prop} (holds : property pod) :
    RepliesWith codec r (run (World.step fs) (replyPod codec r pod) w) property := by
  have same := Memory.read_write_same (w.mem .slot) r.out (codec.enc pod)
  rw [codec.length_enc] at same
  rw [run_replyPod fs w codec r pod room]
  refine ⟨rfl, rfl, ?_⟩
  rw [replyStruct, World.write_mem_same, same, codec.dec_enc]
  exact holds

/-- The answer to a callback, packed into a struct. -/
theorem repliesWith_answer {α β : Type} {codec : Codec β} {pack : α → β} (cb : Callback)
    (answer : cb.Answer → Except Errc α) {value : α} {property : β → Prop}
    (accepts : answer (fs.perform cb w.fs).1 = .ok value) (room : codec.size ≤ r.cap)
    (holds : property (pack value)) :
    RepliesWith codec r (run (World.step fs)
      (call cb >>= fun rv => withAnswer r (answer rv) fun v => replyPod codec r (pack v)) w)
      property := by
  rw [run_bind, run_call, accepts]
  exact replyStruct_replyPod fs r _ codec (pack value) room holds

/-- A request that was decoded to `q` and whose reply fits is answered with such a struct. -/
def Served {α : Type} (q : Request) (codec : Codec α) (property : α → Prop) : Prop :=
  decodeAt (w.mem .scratch) h body = .accept q → codec.size ≤ r.cap →
    RepliesWith codec r (run (World.step fs) (dispatch opts h body r) w) property

theorem served_of_serve {α : Type} {q : Request} {codec : Codec α} {property : α → Prop}
    (replies : codec.size ≤ r.cap →
      RepliesWith codec r (run (World.step fs) (serve opts h r q) w) property) :
    Served fs opts h body r w q codec property := by
  intro decoded room
  rw [dispatch_leaf _ _ _ _ (decodeAt_leaf decoded), run_dispatchLeaf, decoded]
  exact replies room

/-- The place of the attributes in the body of SETSTATX. -/
def statOffset : Nat := FuseSetstatxIn.codec.size - FuseStatx.codec.size

/-- A SETSTATX that passes the size check is decoded from what lies at that place. -/
theorem decodeAt_setstatx {sx : FuseStatx} (m : Memory)
    (code : h.opcode = Opcode.setstatx.code)
    (whole : extBytes h + FuseSetstatxIn.codec.size ≤ body.len)
    (there : m.read (body.base + statOffset) FuseStatx.codec.size = FuseStatx.codec.enc sx) :
    ∃ fh, decodeAt m h body = .accept (.setstatx (fh, unpackStatx sx)) := by
  have sizes : statOffset + FuseStatx.codec.size = FuseSetstatxIn.codec.size := rfl
  have fits : ¬extBytes h + FuseSetstatxIn.codec.size > body.len := by omega
  -- The attributes are not at the extension offset: they are read from the start of the body.
  have behind : ¬body.len < statOffset + FuseStatx.codec.size := by omega
  refine ⟨(FuseSetstatxIn.codec.dec
    (m.read (body.base + extBytes h) FuseSetstatxIn.codec.size)).fh, ?_⟩
  unfold statOffset at there behind
  rw [decodeAt, decode, (Opcode.ofCode_eq_some_iff _ _).mpr code]
  simp only [run_map, parseSetstatx, run_bind, run_inArg, if_neg fits, if_neg behind, run_load,
    run_pure, there, Codec.dec_enc]
  rfl

/-- What is promised of the replies to one request, and of the attributes it brings back. -/
structure AttributesKept : Prop where
  statx : ∀ stat, (fs.statx (makeCtx h) h.nodeid w.fs).1 = .ok stat →
    Served fs opts h body r w .statx FuseStatxOut.codec (StatxReply stat)
  setstatx : ∀ args stat, (fs.setstatx (makeCtx h) h.nodeid args.1 args.2 w.fs).1 = .ok stat →
    Served fs opts h body r w (.setstatx args) FuseStatxOut.codec (StatxReply stat)
  lookupx : ∀ name entry, (fs.lookupx (makeCtx h) h.nodeid name w.fs).1 = .ok entry →
    Served fs opts h body r w (.lookupx name) FuseEntryxOut.codec (EntryReply entry)
  lookupRoot : ∀ entry, (fs.lookupRoot (makeCtx h) w.fs).1 = .ok entry →
    Served fs opts h body r w .lookupRoot FuseEntryxOut.codec (EntryReply entry)
  statfs : ∀ stat, (fs.statfs (makeCtx h) h.nodeid w.fs).1 = .ok stat →
    Served fs opts h body r w .statfs FuseKstatfs.codec (StatfsReply stat)
  fedBack : ∀ stat attrValid, h.opcode = Opcode.setstatx.code →
    extBytes h + FuseSetstatxIn.codec.size ≤ body.len →
    (w.mem .scratch).read (body.base + statOffset) FuseStatx.codec.size =
      FuseStatx.codec.enc (packStatx stat attrValid).stat →
    ∃ fh, callbacks (trace (World.step fs) (dispatch opts h body r) w) =
      [.setstatx (makeCtx h) h.nodeid fh stat.settable]

/-- Every field comes through, in the replies and back. -/
theorem attributes_round_trip : AttributesKept fs opts h body r w where
  statx stat accepts := served_of_serve fs opts h body r w fun room =>
    repliesWith_answer fs r w (.statx (makeCtx h) h.nodeid) id accepts room
      (packStatx_reply stat)
  setstatx args stat accepts := served_of_serve fs opts h body r w fun room =>
    repliesWith_answer fs r w (.setstatx (makeCtx h) h.nodeid args.1 args.2)
      id accepts room (packStatx_reply stat)
  lookupx name entry accepts := served_of_serve fs opts h body r w fun room =>
    repliesWith_answer fs r w (.lookupx (makeCtx h) h.nodeid name) id accepts
      room (entryxOut_reply entry)
  lookupRoot entry accepts := served_of_serve fs opts h body r w fun room =>
    repliesWith_answer fs r w (.lookupRoot (makeCtx h)) id accepts room
      (entryxOut_reply entry)
  statfs stat accepts := served_of_serve fs opts h body r w fun room =>
    repliesWith_answer fs r w (.statfs (makeCtx h) h.nodeid) id accepts room
      (⟨rfl, rfl, rfl⟩ : StatfsReply stat _)
  fedBack stat attrValid code whole there := by
    obtain ⟨fh, decoded⟩ := decodeAt_setstatx h body (w.mem .scratch) code whole there
    refine ⟨fh, ?_⟩
    rw [dispatch_leaf _ _ _ _ (decodeAt_leaf decoded), callbacks_dispatchLeaf, decoded]
    rfl

end Requests

/-- The attributes of a file of five bytes. -/
def fileAttributes : StatxOut :=
  { mask := 0x7ff, mode := 0x81a4, nlink := 1, uid := 1000, gid := 100, ino := 9, size := 5
    mtime := { sec := 7, nsec := 1 } }

/-- A daemon with such a file. -/
def keepingAttributes : Filesystem Unit :=
  { Filesystem.leading 9 with setstatx := fun _ _ _ _ s => (.ok fileAttributes, s) }

/-- SETSTATX with the attributes of a reply. -/
def feedBack : World Unit :=
  { mem := fun _ => Memory.write (fun _ => 0) 0
      (FuseSetstatxIn.codec.enc { stat := (packStatx fileAttributes oneSecond).stat })
    initDone := true
    fs := () }

def setstatxOfNode9 : FuseInHeader := { opcode := Opcode.setstatx.code, nodeid := 9 }

/-- The daemon is called with them, and the kernel finds them in the reply again. -/
theorem attributes_round_trip_setstatx :
    RepliesWith FuseStatxOut.codec { cap := 4096 }
        (run (World.step keepingAttributes)
          (dispatch {} setstatxOfNode9 ⟨0, FuseSetstatxIn.codec.size⟩ { cap := 4096 }) feedBack)
        (StatxReply fileAttributes) ∧
      ∃ fh, callbacks (trace (World.step keepingAttributes)
          (dispatch {} setstatxOfNode9 ⟨0, FuseSetstatxIn.codec.size⟩ { cap := 4096 }) feedBack) =
        [.setstatx (makeCtx setstatxOfNode9) 9 fh fileAttributes.settable] := by
  have there : (feedBack.mem .scratch).read (0 + statOffset) FuseStatx.codec.size =
      FuseStatx.codec.enc (packStatx fileAttributes oneSecond).stat := by
    decide +kernel
  obtain ⟨fh, decoded⟩ := decodeAt_setstatx setstatxOfNode9 ⟨0, FuseSetstatxIn.codec.size⟩
    (feedBack.mem .scratch) rfl (by decide) there
  have kept := attributes_round_trip keepingAttributes {} setstatxOfNode9
    ⟨0, FuseSetstatxIn.codec.size⟩ { cap := 4096 } feedBack
  exact ⟨kept.setstatx _ fileAttributes rfl decoded (by decide),
    kept.fedBack fileAttributes oneSecond rfl (by decide) there⟩

end Fex
