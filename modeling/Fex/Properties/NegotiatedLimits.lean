import Fex.Properties.ExtensionTransparency
import Fex.Properties.SlotTransport

/-!
# The limits negotiated by INIT

## Main result

`negotiates_iff`: the limits in a successful INIT reply fit the payload area of a ring slot,
and with them every READ and WRITE the kernel may send, just when the daemon's `init` sets
no limit that does not fit and either lowers `max_pages` or the area is a whole number of
pages or holds the 256 pages that are offered at most.

## Proof strategy

`limitsFit_of_bounds` derives what the slot does with later requests from the two bounds.
The reply is what the daemon made of the offer (`initReply_eq`), so only the offer has to be
compared with the area: its `max_write` is cut to it, its `max_pages` is rounded up.
-/
namespace Fex

open Foundation Program

/-! ### Later requests -/

/-- The slot holds a request of the kernel: the header, extensions and the first argument in
`op_in`, the other arguments in the payload area. -/
structure KernelRequest {σ : Type} (w : World σ) (h : FuseInHeader) (op : Opcode)
    (ext arg : Bytes) (rest : List Bytes) : Prop where
  opcode : h.opcode = op.code
  extensions : extBytes h = ext.length
  laid : HoldsRequest w h (ext ++ arg) rest
  opIn : (ext ++ arg).length ≤ fuseUringOpInOutSz
  len : h.len.toNat = FuseInHeader.codec.size + ((ext ++ arg) :: rest).flatten.length

/-- What the limits of an INIT reply promise for slots with `payloadBytes` of payload area:
they fit it, the daemon is offered as many bytes as a permitted READ asks for, and the data
of a permitted WRITE passes the size check and arrives whole. -/
structure LimitsFit (payloadBytes : Nat) (out : FuseInitOut) : Prop where
  maxWrite : out.maxWrite.toNat ≤ payloadBytes
  maxPages : 4096 * out.maxPages.toNat ≤ payloadBytes
  reads : ∀ (σ : Type) (fs : Filesystem σ) (opts : SessionOptions) (e : Entry) (w : World σ)
    (h : FuseInHeader) (ext : Bytes) (req : FuseReadIn), e.Allocated payloadBytes →
    KernelRequest w h .read ext (FuseReadIn.codec.enc req) [] →
    req.size.toNat ≤ 4096 * out.maxPages.toNat →
      ∃ span, span.length = req.size.toNat ∧
        callbacks (trace (World.step fs) (handleOne opts payloadBytes e) w) =
          [.read (makeCtx h) h.nodeid req.fh req.offset span]
  writes : ∀ (σ : Type) (fs : Filesystem σ) (opts : SessionOptions) (e : Entry) (w : World σ)
    (h : FuseInHeader) (ext : Bytes) (req : FuseWriteIn) (data : Bytes),
    e.Allocated payloadBytes →
    KernelRequest w h .write ext (FuseWriteIn.codec.enc req) [data] →
    req.size.toNat = data.length → req.size.toNat ≤ out.maxWrite.toNat →
      ¬Oversize w e ∧
        callbacks (trace (World.step fs) (handleOne opts payloadBytes e) w) =
          [.write (makeCtx h) h.nodeid req.fh req.offset data]

section Requests

variable {m : Memory} {h : FuseInHeader} {ext : Bytes}

/-- The arguments behind the extensions. -/
theorem read_behind {arg : Bytes} (bytes : m.read 0 (ext ++ arg).length = ext ++ arg) :
    m.read ext.length arg.length = arg := by
  have slice := m.read_slice 0 (ext ++ arg).length ext.length arg.length (by simp)
  rwa [Nat.zero_add, bytes, List.drop_left, List.take_length] at slice

theorem decodeAt_read {req : FuseReadIn} (code : h.opcode = Opcode.read.code)
    (extensions : extBytes h = ext.length)
    (bytes : m.read 0 (ext ++ FuseReadIn.codec.enc req).length =
      ext ++ FuseReadIn.codec.enc req) :
    decodeAt m h ⟨0, (ext ++ FuseReadIn.codec.enc req).length⟩ = .accept (.read req) := by
  have args := read_behind bytes
  rw [Codec.length_enc] at args
  rw [decodeAt, decode, (Opcode.ofCode_eq_some_iff _ _).mpr code]
  dsimp only
  rw [run_map, run_inArg, extensions, if_neg (by simp)]
  dsimp only
  rw [Nat.zero_add, args, Codec.dec_enc]
  rfl

theorem decodeAt_write {req : FuseWriteIn} {data : Bytes} (code : h.opcode = Opcode.write.code)
    (extensions : extBytes h = ext.length) (size : req.size.toNat = data.length)
    (bytes : m.read 0 (ext ++ (FuseWriteIn.codec.enc req ++ data)).length =
      ext ++ (FuseWriteIn.codec.enc req ++ data)) :
    decodeAt m h ⟨0, (ext ++ (FuseWriteIn.codec.enc req ++ data)).length⟩ =
      .accept (.write (req, data)) := by
  have args := read_behind bytes
  have skips : SkipsExtensions h.opcode := by
    intro op is
    rw [code, Opcode.ofCode_code] at is
    cases is
    rfl
  -- WRITE skips its extensions: it is the plain request behind them.
  have shifted := congrArg Prod.fst (decode_shift (Filesystem.failing Errc.ioError)
    h.totalExtlen 0 (FuseWriteIn.codec.enc req ++ data).length skips ⟨fun _ => m, false, ()⟩)
  have words : 8 * h.totalExtlen.toNat = ext.length := by
    rw [← extensions, extBytes, Nat.mul_comm]
  rw [words, Nat.zero_add] at shifted
  rw [List.length_append]
  refine shifted.trans ?_
  exact decode_encode _ args (extBytes_extended 0 h) (.write req data) size code
    (List.prefix_refl _)

end Requests

section Slot

variable {σ : Type} (fs : Filesystem σ) (opts : SessionOptions) {payloadBytes : Nat} {e : Entry}
  {w : World σ} {h : FuseInHeader} {op : Opcode} {ext arg : Bytes} {rest : List Bytes}

/-- The callbacks of a slot whose request decodes to `q`. -/
theorem KernelRequest.callbacks (request : KernelRequest w h op ext arg rest)
    (allocated : e.Allocated payloadBytes) (leaf : op.code ≠ Opcode.compound.code)
    (fits : rest.flatten.length ≤ payloadBytes) {q : Request}
    (decoded : decodeAt ((assembled w).mem .scratch) h
      ⟨0, ((ext ++ arg) :: rest).flatten.length⟩ = .accept q) :
    ¬Oversize w e ∧ ∃ span, span.length = q.lent payloadBytes ∧
      Fex.callbacks (trace (World.step fs) (handleOne opts payloadBytes e) w) =
        [q.callback opts h span] := by
  have sizes : KernelSizes payloadBytes h (ext ++ arg) rest := ⟨request.opIn, fits, request.len⟩
  have small := request.laid.not_oversize sizes allocated
  refine ⟨small, ((assembled w).mem .slot).read uringReqHeaderSize (q.lent payloadBytes),
    Memory.length_read .., ?_⟩
  rw [(handleOne_dispatches fs w opts payloadBytes e small).2, request.laid.slotDispatch sizes,
    requestDispatch, dispatch_leaf _ _ _ _ (request.opcode ▸ leaf), callbacks_dispatchLeaf, decoded]
  rfl

/-- A READ is offered what it asks for, up to the payload area. -/
theorem KernelRequest.read_callbacks {req : FuseReadIn}
    (request : KernelRequest w h .read ext (FuseReadIn.codec.enc req) [])
    (allocated : e.Allocated payloadBytes) :
    ∃ span, span.length = min req.size.toNat payloadBytes ∧
      Fex.callbacks (trace (World.step fs) (handleOne opts payloadBytes e) w) =
        [.read (makeCtx h) h.nodeid req.fh req.offset span] := by
  have sizes : KernelSizes payloadBytes h (ext ++ FuseReadIn.codec.enc req) [] :=
    ⟨request.opIn, Nat.zero_le _, request.len⟩
  have body := request.laid.body sizes
  rw [List.flatten_singleton] at body
  have decoded := decodeAt_read request.opcode request.extensions body
  obtain ⟨-, span, length, called⟩ := request.callbacks fs opts allocated (by decide)
    (Nat.zero_le _) (by rw [List.flatten_singleton]; exact decoded)
  exact ⟨span, length, called⟩

end Slot

/-- The two bounds imply the rest. -/
theorem limitsFit_of_bounds {payloadBytes : Nat} {out : FuseInitOut}
    (maxWrite : out.maxWrite.toNat ≤ payloadBytes)
    (maxPages : 4096 * out.maxPages.toNat ≤ payloadBytes) : LimitsFit payloadBytes out := by
  refine ⟨maxWrite, maxPages, ?_, ?_⟩
  · intro σ fs opts e w h ext req allocated request permitted
    obtain ⟨span, length, called⟩ := request.read_callbacks fs opts allocated
    exact ⟨span, length.trans (Nat.min_eq_left (by omega)), called⟩
  · intro σ fs opts e w h ext req data allocated request size permitted
    -- A WRITE has its header in `op_in` and all of its data in the payload area.
    have fits : ([data] : List Bytes).flatten.length ≤ payloadBytes := by
      rw [List.flatten_singleton]
      omega
    have sizes : KernelSizes payloadBytes h (ext ++ FuseWriteIn.codec.enc req) [data] :=
      ⟨request.opIn, fits, request.len⟩
    have body := request.laid.body sizes
    rw [List.flatten_cons, List.flatten_singleton, List.append_assoc] at body
    have decoded := decodeAt_write request.opcode request.extensions size body
    obtain ⟨small, span, -, called⟩ := request.callbacks fs opts allocated (by decide) fits
      (by rw [List.flatten_cons, List.flatten_singleton, List.append_assoc]; exact decoded)
    exact ⟨small, called⟩

/-! ### The INIT reply -/

/-- The `fuse_init_out` in the reply area. -/
def initReply {σ : Type} (r : Replier) (w : World σ) : FuseInitOut :=
  FuseInitOut.codec.dec ((w.mem .slot).read r.out FuseInitOut.codec.size)

/-- Whenever INIT succeeds with a daemon in state `s`, the limits it replies with fit. -/
def Negotiates {σ : Type} (fs : Filesystem σ) (opts : SessionOptions) (s : σ)
    (req : FuseInitIn) : Prop :=
  ∀ (h : FuseInHeader) (body : Span) (r : Replier) (w : World σ), w.fs = s →
    decodeAt (w.mem .scratch) h body = .accept (.init req) →
    let done := run (World.step fs) (dispatch opts h body r) w
    done.1.negErr = 0 → done.1.len = FuseInitOut.codec.size →
      LimitsFit opts.uringPayloadBytes (initReply r done.2)

/-- The daemon's `init` fails, gives up the protocol version, or leaves limits that fit: a
`max_write` that it has not raised beyond the payload area, and a `max_pages` that fits the
area if it is the daemon's own; if it is the offered one, the area must be a whole number of
pages or hold 256 of them. -/
def EditsFit {σ : Type} (fs : Filesystem σ) (opts : SessionOptions) (s : σ) (req : FuseInitIn) :
    Prop :=
  let offer := initInfo opts req
  ∀ info, (fs.init offer s).1 = .ok info → info.kernelMajor = fuseKernelVersion →
    (info.maxWrite ≠ offer.maxWrite → info.maxWrite.toNat ≤ opts.uringPayloadBytes) ∧
      if info.maxPages = offer.maxPages then
        4096 ∣ opts.uringPayloadBytes ∨ 2 ^ 20 ≤ opts.uringPayloadBytes
      else 4096 * info.maxPages.toNat ≤ opts.uringPayloadBytes

section Offer

variable (opts : SessionOptions) (req : FuseInitIn)

/-- The offered `max_write` is cut to the payload area, also where the cast loses bits. -/
theorem initInfo_maxWrite_le :
    (initInfo opts req).maxWrite.toNat ≤ opts.uringPayloadBytes := by
  have cut : (initInfo opts req).maxWrite ≤ UInt32.ofNat opts.uringPayloadBytes := by
    show (if (0x100000 : UInt32) ≤ UInt32.ofNat opts.uringPayloadBytes then 0x100000
      else UInt32.ofNat opts.uringPayloadBytes) ≤ UInt32.ofNat opts.uringPayloadBytes
    -- `std::min` after the cast to 32 bits.
    split
    next small => exact small
    · exact Nat.le_refl _
  calc (initInfo opts req).maxWrite.toNat
      ≤ (UInt32.ofNat opts.uringPayloadBytes).toNat := cut
    _ = opts.uringPayloadBytes % 2 ^ 32 := UInt32.toNat_ofNat'
    _ ≤ opts.uringPayloadBytes := Nat.mod_le _ _

theorem initInfo_maxPages :
    (initInfo opts req).maxPages.toNat = min 256 ((opts.uringPayloadBytes + 4095) / 4096) := by
  have small : min 256 ((opts.uringPayloadBytes + 4095) / 4096) < 2 ^ 16 :=
    Nat.lt_of_le_of_lt (Nat.min_le_left _ _) (by decide)
  exact UInt16.toNat_ofNat_of_lt' small

/-- The offered `max_pages` is rounded up. -/
theorem initInfo_maxPages_le_iff :
    4096 * (initInfo opts req).maxPages.toNat ≤ opts.uringPayloadBytes ↔
      4096 ∣ opts.uringPayloadBytes ∨ 2 ^ 20 ≤ opts.uringPayloadBytes := by
  rw [initInfo_maxPages]
  omega

end Offer

section Init

variable {σ : Type} (fs : Filesystem σ) (opts : SessionOptions) (r : Replier) (w : World σ)
  (req : FuseInitIn)

theorem initReply_write (w : World σ) (out : FuseInitOut) :
    initReply r (w.write .slot r.out (FuseInitOut.codec.enc out)) = out := by
  have same := Memory.read_write_same (w.mem .slot) r.out (FuseInitOut.codec.enc out)
  rw [Codec.length_enc] at same
  rw [initReply, World.write_mem_same, same, Codec.dec_enc]

/-- What INIT replies once the daemon has accepted the offer with its edits. -/
def initAnswer (info : InitInfo) : FuseInitOut :=
  if info.kernelMajor ≠ fuseKernelVersion then { major := fuseKernelVersion }
  else initOut req info

theorem run_serveInit {info : InitInfo} (accepts : (fs.init (initInfo opts req) w.fs).1 = .ok info)
    (room : FuseInitOut.codec.size ≤ r.cap) :
    let done := run (World.step fs) (serveInit opts r req) w
    done.1.negErr = 0 ∧ done.1.len = FuseInitOut.codec.size ∧
      initReply r done.2 = initAnswer req info := by
  rw [serveInit, run_bind, run_call]
  dsimp only [Filesystem.perform]
  rw [accepts, withAnswer, initAnswer]
  split
  · rw [run_replyPod _ _ _ _ _ room]
    exact ⟨rfl, rfl, initReply_write ..⟩
  · rw [run_bind, run_setInitDone, run_replyPod _ _ _ _ _ room]
    exact ⟨rfl, rfl, initReply_write ..⟩

/-- A reply of this size means that the daemon accepted and that there was room. -/
theorem serveInit_success (success : (run (World.step fs) (serveInit opts r req) w).1.negErr = 0)
    (sized : (run (World.step fs) (serveInit opts r req) w).1.len = FuseInitOut.codec.size) :
    FuseInitOut.codec.size ≤ r.cap ∧
      ∃ info, (fs.init (initInfo opts req) w.fs).1 = .ok info := by
  rw [serveInit, run_bind, run_call] at success sized
  dsimp only [Filesystem.perform] at success sized
  cases accepts : (fs.init (initInfo opts req) w.fs).1 with
  -- An error reply has no payload, whatever its number.
  | error e =>
    rw [accepts, withAnswer, run_pure] at sized
    exact absurd sized (by decide : (0 : Nat) ≠ FuseInitOut.codec.size)
  | ok info =>
    refine ⟨?_, info, rfl⟩
    -- Without room `reply_pod` turns the answer into EIO.
    by_contra cramped
    rw [accepts, withAnswer] at success
    split at success
    · exact replyPod_cramped fs _ _ r _ cramped success
    · rw [run_bind] at success
      exact replyPod_cramped fs _ _ r _ cramped success

end Init

/-! ### The equivalence -/

/-- A body that holds the INIT request, and nothing else. -/
def initBody {σ : Type} (req : FuseInitIn) (s : σ) : World σ :=
  { mem := fun _ => Memory.write (fun _ => 0) 0 (FuseInitIn.codec.enc req)
    initDone := false
    fs := s }

theorem decodeAt_initBody {σ : Type} (req : FuseInitIn) (s : σ)
    (offers : kernelFlags req &&& fuseOverIoUring ≠ 0) :
    decodeAt ((initBody req s).mem .scratch) { opcode := Opcode.init.code }
      ⟨0, FuseInitIn.codec.size⟩ = .accept (.init req) := by
  have bytes : Memory.read (Memory.write (fun _ => 0) 0 (FuseInitIn.codec.enc req)) 0
      FuseInitIn.codec.size = FuseInitIn.codec.enc req := by
    rw [← FuseInitIn.codec.length_enc req, Memory.read_write_same]
  have none : extBytes { opcode := Opcode.init.code } = 0 := rfl
  have whole : ¬0 + FuseInitIn.codec.size > FuseInitIn.codec.size := by decide
  rw [decodeAt, decode, Opcode.ofCode_code]
  dsimp only
  rw [run_bind, run_inArg, none, if_neg whole]
  dsimp only [initBody]
  rw [bytes, Codec.dec_enc, if_neg offers, run_pure]

theorem editsFit_of_negotiates {σ : Type} {fs : Filesystem σ} {opts : SessionOptions} {s : σ}
    {req : FuseInitIn} (offers : kernelFlags req &&& fuseOverIoUring ≠ 0)
    (negotiates : Negotiates fs opts s req) : EditsFit fs opts s req := by
  intro info accepts version
  -- A reply area that holds the answer and nothing more will do.
  obtain ⟨success, sized, reply⟩ := run_serveInit fs opts { cap := FuseInitOut.codec.size }
    (initBody req s) req accepts (Nat.le_refl _)
  have fits := negotiates { opcode := Opcode.init.code } ⟨0, FuseInitIn.codec.size⟩
    { cap := FuseInitOut.codec.size } (initBody req s) rfl (decodeAt_initBody req s offers)
  rw [dispatch_leaf _ _ _ _ (by decide), run_dispatchLeaf, decodeAt_initBody req s offers]
    at fits
  have limits := fits success sized
  rw [respond, serve, reply, initAnswer, if_neg (not_not.mpr version)] at limits
  refine ⟨fun _ => limits.maxWrite, ?_⟩
  have pages : 4096 * info.maxPages.toNat ≤ opts.uringPayloadBytes := limits.maxPages
  split
  -- The offered number fits if nothing was rounded up, or if it was capped at 256.
  next same =>
    rw [same] at pages
    exact (initInfo_maxPages_le_iff opts req).mp pages
  · exact pages

/-- The negotiated limits fit just when the daemon's edits do. -/
theorem negotiates_iff {σ : Type} (fs : Filesystem σ) (opts : SessionOptions) (s : σ)
    (req : FuseInitIn) (offers : kernelFlags req &&& fuseOverIoUring ≠ 0) :
    Negotiates fs opts s req ↔ EditsFit fs opts s req := by
  refine ⟨editsFit_of_negotiates offers, ?_⟩
  intro edits h body r w daemon decoded
  have known := decodeAt_known (w.mem .scratch) h body
  rw [decoded] at known
  have code : h.opcode = Opcode.init.code := (Opcode.ofCode_eq_some_iff _ _).mp known
  rw [dispatch_leaf _ _ _ _ (by rw [code]; decide), run_dispatchLeaf, decoded, respond, serve]
  intro done success sized
  obtain ⟨room, info, accepts⟩ := serveInit_success fs opts r w req success sized
  obtain ⟨-, -, reply⟩ := run_serveInit fs opts r w req accepts room
  rw [daemon] at accepts
  rw [reply, initAnswer]
  split
  · -- Another version: the answer is all zeros but for ours.
    exact limitsFit_of_bounds (Nat.zero_le _) (by rw [UInt16.toNat_zero]; exact Nat.zero_le _)
  next version =>
    obtain ⟨write, pages⟩ := edits info accepts (not_not.mp version)
    apply limitsFit_of_bounds
    · by_cases same : info.maxWrite = (initInfo opts req).maxWrite
      · exact Nat.le_trans (Nat.le_of_eq (congrArg UInt32.toNat same))
          (initInfo_maxWrite_le opts req)
      · exact write same
    · by_cases same : info.maxPages = (initInfo opts req).maxPages
      · rw [if_pos same] at pages
        have fits := (initInfo_maxPages_le_iff opts req).mpr pages
        rw [← same] at fits
        exact fits
      · rw [if_neg same] at pages
        exact pages

/-- A daemon that takes every offer as it is. -/
def takesOffers : Filesystem Unit :=
  { Filesystem.failing Errc.functionNotSupported with init := fun info s => (.ok info, s) }

/-- INIT of a kernel with the io_uring transport. -/
def uringInit : FuseInitIn := { major := 7, minor := 45, flags2 := 512 }

/-- The default payload area has room for all 256 pages. -/
theorem negotiates_iff_default : Negotiates takesOffers {} () uringInit := by
  refine (negotiates_iff takesOffers {} () uringInit (by decide)).mpr ?_
  rintro info accepts -
  cases accepts
  refine ⟨fun differs => absurd rfl differs, ?_⟩
  rw [if_pos rfl]
  exact .inl (by decide)

/-- READ of two pages. -/
def readTwoPages : FuseReadIn := { size := 8192 }

def readHeader : FuseInHeader := { len := 80, opcode := Opcode.read.code, nodeid := 1 }

theorem readTwoPages_laid :
    KernelRequest (layOut (idle ()) readHeader (FuseReadIn.codec.enc readTwoPages) []) readHeader
      .read [] (FuseReadIn.codec.enc readTwoPages) [] := by
  have sizes : KernelSizes 0 readHeader (FuseReadIn.codec.enc readTwoPages) [] :=
    ⟨by decide, Nat.le_refl _, by decide⟩
  exact ⟨rfl, rfl, layOut_holds (idle ()) sizes, sizes.opIn, sizes.len⟩

/-- A payload area of 5000 bytes is negotiated as two pages, and a READ of two pages is then
offered 5000 bytes. -/
theorem init_rounds_pages_up :
    (initInfo { uringPayloadBytes := 5000 } uringInit).maxPages = 2 ∧
      ¬Negotiates takesOffers { uringPayloadBytes := 5000 } () uringInit ∧
      ∃ span, span.length = 5000 ∧
        callbacks (trace (World.step takesOffers)
          (handleOne { uringPayloadBytes := 5000 } 5000 (Entry.start 5000))
          (layOut (idle ()) readHeader (FuseReadIn.codec.enc readTwoPages) [])) =
            [.read { nodeid := 1 } 1 0 0 span] := by
  refine ⟨by decide, ?_, ?_⟩
  · intro negotiates
    have edits := editsFit_of_negotiates (by decide) negotiates _ rfl rfl
    rw [if_pos rfl] at edits
    exact absurd edits.2 (by decide)
  · have allocated : (Entry.start 5000).Allocated 5000 := rfl
    exact readTwoPages_laid.read_callbacks takesOffers _ allocated

end Fex
