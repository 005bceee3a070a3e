import Fex.Dispatch

/-!
# The ring worker: one request through a slot

A slot's buffer is `[fuse_uring_req_header][payload area]` at address 0 of `slot`;
its `body_scratch` vector is at address 0 of `scratch`. `handle_one` reassembles the
body in the scratch, dispatches, and overlays the reply on the request.
-/
namespace Fex

open Foundation

/-- A ring entry: the sizes fixed by `start()` and the captured commit id. -/
structure Entry where
  bufLen : Nat
  scratchLen : Nat
  commitId : UInt64 := 0

/-- The entry `start()` allocates for `payload_bytes`. -/
def Entry.start (payloadBytes : Nat) : Entry :=
  { bufLen := uringReqHeaderSize + payloadBytes
    scratchLen := fuseUringOpInOutSz + payloadBytes }

/-- An entry with the buffers of `start()`, whatever request it served last. -/
def Entry.Allocated (payloadBytes : Nat) (e : Entry) : Prop :=
  e = { Entry.start payloadBytes with commitId := e.commitId }

/-- Offset of `op_in` in `fuse_uring_req_header`. -/
def opInOff : Nat := fuseUringInOutHeaderSz

/-- Offset of `ring_ent_in_out`. -/
def ringEntOff : Nat := fuseUringInOutHeaderSz + fuseUringOpInOutSz

/-- Offset of `ring_ent_in_out.payload_sz`. -/
def payloadSzOff : Nat := ringEntOff + 16

/-- `in_args[0].size`, derived from what the header and the payload leave over. -/
def firstArgSize (h : FuseInHeader) (payloadSz : Nat) : Nat :=
  if h.len.toNat ≥ FuseInHeader.codec.size + payloadSz then
    h.len.toNat - FuseInHeader.codec.size - payloadSz
  else 0

/-- Overlay the reply header on `in_out` and publish the payload size. -/
def publish (e : Entry) (outh : FuseOutHeader) (replySz : UInt32) :
    Handler (Entry × UInt32) := do
  store .slot ⟨0, e.bufLen⟩ 0 (FuseOutHeader.codec.enc outh)
  store .slot ⟨0, e.bufLen⟩ payloadSzOff (Codec.u32.enc replySz)
  return (e, replySz)

/-- The two `memcpy`s that assemble `[in_args[0]][in_args[1..]]` in the scratch. -/
def assembleBody (e : Entry) (firstArgSz payloadSz : Nat) : Handler Unit := do
  unless firstArgSz = 0 do
    let opIn ← load .slot ⟨opInOff, fuseUringOpInOutSz⟩ 0 firstArgSz
    store .scratch ⟨0, e.scratchLen⟩ 0 opIn.1
  unless payloadSz = 0 do
    let payload ← load .slot ⟨0, e.bufLen⟩ uringReqHeaderSize payloadSz
    store .scratch ⟨0, e.scratchLen⟩ firstArgSz payload.1

/-- The reply header for a filled `Replier`. -/
def replyHeader (r : Replier) : FuseOutHeader :=
  { unique := r.unique
    error := r.negErr
    len := UInt32.ofNat (FuseOutHeader.codec.size + if r.negErr ≠ 0 then 0 else r.len) }

def handleOne (opts : SessionOptions) (payloadBytes : Nat) (e : Entry) :
    Handler (Entry × UInt32) := do
  let entBytes ← load .slot ⟨0, e.bufLen⟩ ringEntOff FuseUringEntInOut.codec.size
  let ent := FuseUringEntInOut.codec.dec entBytes
  let e := { e with commitId := ent.commitId }
  let payloadSz := ent.payloadSz.toNat
  -- A copy: the reply header will be written over it.
  let hBytes ← load .slot ⟨0, e.bufLen⟩ 0 FuseInHeader.codec.size
  let h := FuseInHeader.codec.dec hBytes
  let firstArgSz := firstArgSize h payloadSz
  let bodyLen := firstArgSz + payloadSz
  -- Refused before anything is copied.
  if firstArgSz > fuseUringOpInOutSz ∨ bodyLen > e.scratchLen then
    publish e
      { unique := h.unique
        error := negErrno Errc.ioError
        len := UInt32.ofNat FuseOutHeader.codec.size } 0
  else
    assembleBody e firstArgSz payloadSz
    let r ← dispatch opts h ⟨0, bodyLen⟩
      { out := uringReqHeaderSize, cap := payloadBytes, unique := h.unique }
    publish e (replyHeader r) (if r.negErr ≠ 0 then 0 else UInt32.ofNat r.len)

end Fex
