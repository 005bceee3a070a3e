import Fex.Properties.ReplyBounds
import Fex.Scripted

/-!
# The ring transport is transparent

## Main result

`handleOne_transparent`: a request that the kernel laid out in the slot reaches
`dispatch` once, with its header and the concatenation of its arguments, whatever the
buffers held before; and the reply `dispatch` produced is what the slot then holds,
as long as its size can be told in the 32 bits of `payload_sz` and `len`.

## Proof strategy

The layout determines what `handle_one` derives from the slot (`HoldsRequest.header`,
`HoldsRequest.firstArg`, `HoldsRequest.body`), so its one dispatch (`trace_handleOne_fits`) is
the dispatch of the request. The dispatch stores into the slot only, and what no
operation changes is read as it was (`Program.trace_answers`).
-/
namespace Fex

open Foundation Program

/-! ### The kernel's layout -/

/-- The slot holds the request `h` with `in_args` `first :: rest`: the header in
`in_out`, the first argument in `op_in`, the others one after another in the payload
area, their total in `payload_sz`. Every other byte is arbitrary. -/
structure HoldsRequest {σ : Type} (w : World σ) (h : FuseInHeader) (first : Bytes)
    (rest : List Bytes) : Prop where
  inOut : (w.mem .slot).read 0 FuseInHeader.codec.size = FuseInHeader.codec.enc h
  opIn : (w.mem .slot).read opInOff first.length = first
  payload : (w.mem .slot).read uringReqHeaderSize rest.flatten.length = rest.flatten
  payloadSz : (slotEnt w).payloadSz.toNat = rest.flatten.length

/-- The sizes the kernel keeps to: `in_args[0]` fits `op_in`, the others fit the
payload area, and the header counts all of them. -/
structure KernelSizes (payloadBytes : Nat) (h : FuseInHeader) (first : Bytes)
    (rest : List Bytes) : Prop where
  opIn : first.length ≤ fuseUringOpInOutSz
  payload : rest.flatten.length ≤ payloadBytes
  len : h.len.toNat = FuseInHeader.codec.size + (first :: rest).flatten.length

section Layout

variable {σ : Type} {w : World σ} {payloadBytes : Nat} {h : FuseInHeader} {first : Bytes}
  {rest : List Bytes}

theorem HoldsRequest.header (laid : HoldsRequest w h first rest) : slotHeader w = h := by
  rw [slotHeader, laid.inOut, Codec.dec_enc]

theorem HoldsRequest.firstArg (laid : HoldsRequest w h first rest)
    (sizes : KernelSizes payloadBytes h first rest) : slotFirstArg w = first.length := by
  have len := sizes.len
  rw [List.flatten_cons, List.length_append] at len
  rw [slotFirstArg, laid.header, laid.payloadSz, firstArgSize, if_pos (by omega)]
  omega

theorem HoldsRequest.bodyLen (laid : HoldsRequest w h first rest)
    (sizes : KernelSizes payloadBytes h first rest) :
    slotBodyLen w = (first :: rest).flatten.length := by
  rw [slotBodyLen, laid.firstArg sizes, laid.payloadSz, List.flatten_cons, List.length_append]

theorem HoldsRequest.not_oversize (laid : HoldsRequest w h first rest)
    (sizes : KernelSizes payloadBytes h first rest) {e : Entry}
    (allocated : e.Allocated payloadBytes) : ¬Oversize w e := by
  have opIn := sizes.opIn
  have payload := sizes.payload
  have room : e.scratchLen = fuseUringOpInOutSz + payloadBytes := by
    rw [allocated]
    rfl
  rintro (first | body)
  · rw [laid.firstArg sizes] at first
    omega
  · rw [laid.bodyLen sizes, room, List.flatten_cons, List.length_append] at body
    omega

/-- The assembled body is the concatenation of the arguments. -/
theorem HoldsRequest.body (laid : HoldsRequest w h first rest)
    (sizes : KernelSizes payloadBytes h first rest) :
    ((assembled w).mem .scratch).read 0 (first :: rest).flatten.length =
      (first :: rest).flatten := by
  rw [List.flatten_cons, List.length_append, Memory.read_add, Nat.zero_add]
  simp only [assembled, World.write_mem_same]
  rw [laid.firstArg sizes, laid.payloadSz, laid.opIn, laid.payload]
  -- The second copy starts where the first one ends.
  rw [Memory.read_write_disjoint _ _ _ _ _ (.inl (Nat.le_of_eq (Nat.zero_add _))),
    Memory.read_write_same, Memory.read_write_same]

end Layout

/-! ### One dispatch -/

/-- The dispatch of a request over the body at the start of the scratch. -/
def requestDispatch (opts : SessionOptions) (payloadBytes : Nat) (h : FuseInHeader)
    (body : Bytes) : Handler Replier :=
  dispatch opts h ⟨0, body.length⟩
    { out := uringReqHeaderSize, cap := payloadBytes, unique := h.unique }

/-- A load of the request body returns the bytes of `m`. -/
def Op.ReadsFrom (m : Memory) : (op : Op) → op.Answer → Prop
  | .load .scratch span off len, answer => answer.1 = m.read (span.base + off) len
  | .load .slot .., _ | .store .., _ | .call _, _ | .setInitDone, _ => True

section Dispatch

variable {σ : Type} (fs : Filesystem σ) (w : World σ) (opts : SessionOptions)

theorem readsFrom_step (op : Op) :
    op.ReadsFrom (w.mem .scratch) (World.step fs op w).1 := by
  cases op with
  | load blk span off len =>
    cases blk with
    | scratch => rfl
    | slot => trivial
  | store | call | setInitDone => trivial

/-- An operation that writes inside the slot leaves the request body alone. -/
theorem Op.WritesInside.scratch {area : Span} {op : Op} (writes : op.WritesInside area) :
    ((World.step fs op w).2).mem .scratch = w.mem .scratch := by
  cases op with
  | store blk span off bytes =>
    obtain ⟨rfl, -, -⟩ := writes
    exact World.write_mem_scratch w _ _
  | load | call | setInitDone => rfl

/-- Whatever of its reply it has written already, a handler reads the request as it
was when the dispatch began. -/
theorem dispatch_readsFrom (h : FuseInHeader) (body : Span) (r : Replier) :
    ∀ e ∈ trace (World.step fs) (dispatch opts h body r) w,
      e.1.ReadsFrom (w.mem .scratch) e.2 := by
  have errors : fs.ErrorsSatisfy fun _ => True := fun _ _ _ _ => trivial
  have keeps := (dispatch_bounds opts errors h body r w).1
  exact trace_answers (World.step fs) (fun w : World σ => w.mem .scratch) Op.ReadsFrom
    (fun op w => readsFrom_step fs w op) (dispatch opts h body r) w
    fun e member w => (keeps e member).writesInside.scratch fs w

/-- The log of a request that is not oversized: reading the headers and copying the
body, the dispatch, publishing. -/
theorem trace_handleOne_fits (payloadBytes : Nat) {e : Entry} (fits : ¬Oversize w e) :
    ∃ before after, callbacks before = [] ∧ callbacks after = [] ∧
      trace (World.step fs) (handleOne opts payloadBytes e) w =
        before ++ trace (World.step fs) (slotDispatch w opts payloadBytes) (assembled w) ++
          after := by
  have same := mt (oversize_commitId w e (slotEnt w).commitId).mp fits
  rw [trace_handleOne, afterHeaders, if_neg same, trace_bind, trace_bind, run_assembleBody,
    ← List.append_assoc, ← List.append_assoc, ← List.append_assoc]
  refine ⟨_, _, ?_, callbacks_publish .., rfl⟩
  simp only [callbacks_append, callbacks_load, callbacks_assembleBody, List.append_nil]

end Dispatch

/-! ### The reply in the slot -/

/-- The slot of `after` holds the reply `r` whose bytes the dispatch left in `before`. -/
structure Publishes {σ : Type} (r : Replier) (before after : World σ) : Prop where
  unique : (slotOutHeader after).unique = r.unique
  error : (slotOutHeader after).error = r.negErr
  len : (slotOutHeader after).len.toNat = FuseOutHeader.codec.size + r.effective
  payloadSz : (slotEnt after).payloadSz.toNat = r.effective
  payload : (after.mem .slot).read uringReqHeaderSize r.effective =
    (before.mem .slot).read uringReqHeaderSize r.effective

theorem replySize32_eq (r : Replier) : replySize32 r = UInt32.ofNat r.effective := by
  unfold replySize32 Replier.effective
  split <;> rfl

theorem replyHeader_len (r : Replier) :
    (replyHeader r).len = UInt32.ofNat (FuseOutHeader.codec.size + r.effective) := rfl

/-- A reply whose size fits 32 bits is published as it is. -/
theorem published_publishes {σ : Type} (w : World σ) (r : Replier)
    (small : FuseOutHeader.codec.size + r.effective < 2 ^ 32) :
    Publishes r w (published w (replyHeader r) (replySize32 r)) where
  unique := by rw [published_header]; rfl
  error := by rw [published_header]; rfl
  len := by
    rw [published_header, replyHeader_len]
    exact UInt32.toNat_ofNat_of_lt' small
  payloadSz := by
    rw [published_payloadSz, replySize32_eq]
    exact UInt32.toNat_ofNat_of_lt' (by simp only [UInt32.size]; omega)
  payload := published_payload ..

/-! ### The main result -/

/-- What `handle_one` does with the request `h` with the given body: the daemon and the
slot are as before, the body is at the start of the scratch, `dispatch` is called there
and makes the only callbacks, and it reads the body throughout. -/
structure Delivers {σ : Type} (fs : Filesystem σ) (opts : SessionOptions) (payloadBytes : Nat)
    (e : Entry) (w : World σ) (h : FuseInHeader) (body : Bytes) : Prop where
  daemon : (assembled w).fs = w.fs ∧ (assembled w).initDone = w.initDone
  slot : (assembled w).mem .slot = w.mem .slot
  assembles : ((assembled w).mem .scratch).read 0 body.length = body
  once : ∃ before after, callbacks before = [] ∧ callbacks after = [] ∧
    trace (World.step fs) (handleOne opts payloadBytes e) w =
      before ++ trace (World.step fs) (requestDispatch opts payloadBytes h body) (assembled w) ++
        after
  reads : ∀ ev ∈ trace (World.step fs) (requestDispatch opts payloadBytes h body) (assembled w),
    ev.1.ReadsFrom ((assembled w).mem .scratch) ev.2

theorem HoldsRequest.slotDispatch {σ : Type} {w : World σ} {payloadBytes : Nat} {h : FuseInHeader}
    {first : Bytes} {rest : List Bytes} (laid : HoldsRequest w h first rest)
    (sizes : KernelSizes payloadBytes h first rest) (opts : SessionOptions) :
    slotDispatch w opts payloadBytes =
      requestDispatch opts payloadBytes h (first :: rest).flatten := by
  rw [Fex.slotDispatch, slotReplier, laid.header, laid.bodyLen sizes, requestDispatch]

/-- A request laid out by the kernel is delivered, and its reply is published unless
its size does not fit 32 bits. -/
theorem handleOne_transparent {σ : Type} (fs : Filesystem σ) (opts : SessionOptions)
    (payloadBytes : Nat) (e : Entry) (allocated : e.Allocated payloadBytes) (w : World σ)
    (h : FuseInHeader) (first : Bytes) (rest : List Bytes) (laid : HoldsRequest w h first rest)
    (sizes : KernelSizes payloadBytes h first rest) :
    let body := (first :: rest).flatten
    let done := run (World.step fs) (requestDispatch opts payloadBytes h body) (assembled w)
    Delivers fs opts payloadBytes e w h body ∧
      (FuseOutHeader.codec.size + done.1.effective < 2 ^ 32 →
        Publishes done.1 done.2 (run (World.step fs) (handleOne opts payloadBytes e) w).2) := by
  intro body done
  have fits := laid.not_oversize sizes allocated
  have call := laid.slotDispatch sizes opts
  refine ⟨⟨⟨rfl, rfl⟩, ?_, laid.body sizes, ?_, ?_⟩, ?_⟩
  · simp only [assembled, World.write_mem_slot]
  · have once := trace_handleOne_fits fs w opts payloadBytes fits
    rwa [call] at once
  · exact dispatch_readsFrom fs (assembled w) opts _ _ _
  · intro small
    have result := (handleOne_dispatches fs w opts payloadBytes e fits).1
    rw [call] at result
    rw [result]
    exact published_publishes done.2 done.1 small

/-! ### Requests laid out -/

theorem layOut_holds {σ : Type} (w : World σ) {payloadBytes : Nat} {h : FuseInHeader}
    {first : Bytes} {rest : List Bytes} (sizes : KernelSizes payloadBytes h first rest) :
    HoldsRequest (layOut w h first rest) h first rest := by
  have opIn : first.length ≤ 128 := sizes.opIn
  have len := sizes.len
  have bound := h.len.toNat_lt
  rw [List.flatten_cons, List.length_append] at len
  -- The four areas, in the order of their addresses.
  have header : FuseInHeader.codec.size = 40 := rfl
  have word : Codec.u32.size = 4 := rfl
  have opInAt : opInOff = 128 := rfl
  have payloadSzAt : payloadSzOff = 272 := rfl
  have payloadAt : uringReqHeaderSize = 288 := rfl
  refine ⟨?_, ?_, ?_, ?_⟩
  · simp only [layOut, World.write_mem_same]
    rw [Memory.read_write_disjoint _ _ _ _ _ (by omega),
      Memory.read_write_disjoint _ _ _ _ _ (by omega),
      Memory.read_write_disjoint _ _ _ _ _ (by omega), ← FuseInHeader.codec.length_enc h,
      Memory.read_write_same]
  · simp only [layOut, World.write_mem_same]
    rw [Memory.read_write_disjoint _ _ _ _ _ (by omega),
      Memory.read_write_disjoint _ _ _ _ _ (by omega), Memory.read_write_same]
  · simp only [layOut, World.write_mem_same]
    rw [Memory.read_write_same]
  · rw [slotEnt_payloadSz]
    simp only [layOut, World.write_mem_same]
    rw [Memory.read_write_disjoint _ _ _ _ _ (by omega),
      ← Codec.u32.length_enc (UInt32.ofNat rest.flatten.length), Memory.read_write_same,
      Codec.dec_enc]
    exact UInt32.toNat_ofNat_of_lt' (by simp only [UInt32.size]; omega)

/-- LOOKUPX of the name `ab`, split over two arguments. -/
def splitLookup : FuseInHeader :=
  { len := 43, opcode := Opcode.lookupx.code, unique := 9, nodeid := 1 }

/-- The request in a slot. -/
def splitSlot : World Unit := layOut (idle ()) splitLookup [97, 98] [[0]]

theorem splitSlot_sizes : KernelSizes 4096 splitLookup [97, 98] [[0]] :=
  ⟨by decide, by decide, by decide⟩

theorem splitSlot_holds : HoldsRequest splitSlot splitLookup [97, 98] [[0]] :=
  layOut_holds (idle ()) splitSlot_sizes

/-- The daemon is asked for the name, and the entry it finds is published. -/
theorem handleOne_transparent_lookup :
    let fs := Filesystem.leading 9
    let done := run (World.step fs) (requestDispatch {} 4096 splitLookup [97, 98, 0])
      (assembled splitSlot)
    Delivers fs {} 4096 (Entry.start 4096) splitSlot splitLookup [97, 98, 0] ∧
      done.1.effective = FuseEntryxOut.codec.size ∧
      Publishes done.1 done.2
        (run (World.step fs) (handleOne {} 4096 (Entry.start 4096)) splitSlot).2 := by
  intro fs done
  obtain ⟨delivers, publishes⟩ := handleOne_transparent fs {} 4096 (Entry.start 4096) rfl splitSlot
    splitLookup [97, 98] [[0]] splitSlot_holds splitSlot_sizes
  exact ⟨delivers, by decide +kernel, publishes (by decide +kernel)⟩

/-! ### A reply of 4 GiB -/

/-- READLINK without arguments. -/
def readlinkRequest : FuseInHeader :=
  { len := 40, opcode := Opcode.readlink.code, unique := 9, nodeid := 1 }

/-- A daemon with a link target of `n` bytes, and a payload area for just as many. -/
def linkSlot (n : Nat) : World (List Nat) := layOut (idle [n]) readlinkRequest [] []

def linkDispatch (n : Nat) : Handler Replier := requestDispatch {} n readlinkRequest []

theorem linkSlot_sizes (n : Nat) : KernelSizes n readlinkRequest [] [] :=
  ⟨by decide, Nat.zero_le n, by decide⟩

theorem linkSlot_holds (n : Nat) : HoldsRequest (linkSlot n) readlinkRequest [] [] :=
  layOut_holds (idle [n]) (linkSlot_sizes n)

theorem linkDispatch_effective (n : Nat) :
    (run (World.step scripted) (linkDispatch n) (assembled (linkSlot n))).1.effective = n := by
  rw [linkDispatch, requestDispatch, dispatch_leaf _ _ _ _ (by decide)]
  have next : (assembled (linkSlot n)).fs = Decoded.schedule n [] (.accept .readlink) := rfl
  refine (scripted_leaf _ {} readlinkRequest _ next ?_).1
  exact Nat.le_refl n

/-- The size of the link target is published modulo 2 ^ 32. -/
theorem linkSlot_payloadSz (n : Nat) :
    (slotEnt
        (run (World.step scripted) (handleOne {} n (Entry.start n)) (linkSlot n)).2).payloadSz =
      UInt32.ofNat n := by
  have laid := linkSlot_holds n
  have sizes := linkSlot_sizes n
  have fits := laid.not_oversize sizes (show (Entry.start n).Allocated n from rfl)
  rw [(handleOne_dispatches scripted (linkSlot n) {} n (Entry.start n) fits).1,
    laid.slotDispatch sizes, published_payloadSz, replySize32_eq]
  exact congrArg UInt32.ofNat (linkDispatch_effective n)

/-- A link target of 2 ^ 32 bytes, for which the payload area has room, is published
with the size 0. -/
theorem handleOne_truncates_reply :
    let w := linkSlot (2 ^ 32)
    let done := run (World.step scripted) (linkDispatch (2 ^ 32)) (assembled w)
    KernelSizes (2 ^ 32) readlinkRequest [] [] ∧ HoldsRequest w readlinkRequest [] [] ∧
      ¬Publishes done.1 done.2
        (run (World.step scripted) (handleOne {} (2 ^ 32) (Entry.start (2 ^ 32))) w).2 := by
  refine ⟨linkSlot_sizes _, linkSlot_holds _, fun publishes => ?_⟩
  have size := publishes.payloadSz
  rw [linkSlot_payloadSz, linkDispatch_effective] at size
  exact absurd size (by decide)

end Fex
