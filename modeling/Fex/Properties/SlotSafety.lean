import Fex.Properties.SlotTransport

/-!
# handle_one on any slot header

## Main result

`handleOne_safe_iff`: whatever the header of a slot says, the operations of `handle_one`
stay inside the slot's fields, its payload area and its scratch and a request whose sizes
do not fit is refused before anything is copied, if and only if `payload_sz` fits the
payload area or is caught by the check on the body's length. `handleOne_reads_past_payload`
is a slot in between: its `payload_sz` is one byte too large for the payload area and small
enough for the scratch.

## Proof strategy

The log of `handle_one` is the reads of the two headers and, unless the request is refused,
the copies, the dispatch, which keeps to the payload area (`dispatch_bounds`), and the
stores of the reply's header. The check compares the whole body with the scratch, which has
128 bytes more than the payload area (`oversize_iff`). What passes it is copied
(`mem_trace_payload`), so a `payload_sz` beyond the payload area is harmless only if it does
not pass.
-/
namespace Fex

open Foundation Program

/-! ### The operations of handle_one -/

/-- What is read of a slot lies in its in-header, its `ring_ent_in_out`, its `op_in` or its
payload area, what is written to it in the reply's header, in `payload_sz` or in the payload
area, and what is written to the scratch lies inside the scratch. -/
def Op.StaysInside (payloadBytes : Nat) : Op → Prop
  | .load .slot span off len =>
    let bytes : Span := ⟨span.base + off, len⟩
    bytes.Within ⟨0, FuseInHeader.codec.size⟩ ∨
      bytes.Within ⟨ringEntOff, FuseUringEntInOut.codec.size⟩ ∨
      bytes.Within ⟨opInOff, fuseUringOpInOutSz⟩ ∨
      bytes.Within ⟨uringReqHeaderSize, payloadBytes⟩
  | .store .slot span off data =>
    let bytes : Span := ⟨span.base + off, data.length⟩
    bytes.Within ⟨0, FuseOutHeader.codec.size⟩ ∨
      bytes.Within ⟨payloadSzOff, Codec.u32.size⟩ ∨
      bytes.Within ⟨uringReqHeaderSize, payloadBytes⟩
  | .store .scratch span off data =>
    (⟨span.base + off, data.length⟩ : Span).Within ⟨0, fuseUringOpInOutSz + payloadBytes⟩
  | .load .scratch _ _ _ | .call _ | .setInitDone => True

/-- The operation is a part of a copy of the request: it writes to the scratch, or reads of
the slot something else than the two headers. -/
def Op.Copies : Op → Prop
  | .load .slot span off len =>
    let bytes : Span := ⟨span.base + off, len⟩
    ¬(bytes.Within ⟨0, FuseInHeader.codec.size⟩ ∨
      bytes.Within ⟨ringEntOff, FuseUringEntInOut.codec.size⟩)
  | .store .scratch _ _ _ => True
  | .store .slot _ _ _ | .load .scratch _ _ _ | .call _ | .setInitDone => False

/-- A dispatch over the payload area stays inside. -/
theorem Op.KeepsTo.staysInside {payloadBytes : Nat} {op : Op}
    (keeps : op.KeepsTo ⟨uringReqHeaderSize, payloadBytes⟩) : op.StaysInside payloadBytes := by
  unfold Op.KeepsTo at keeps
  unfold Op.StaysInside
  split at keeps
  · exact .inr (.inr (.inr keeps))
  · exact .inr (.inr keeps)
  · exact keeps.elim
  all_goals trivial

/-- The second of the two copies. -/
def copyPayload (e : Entry) (first payloadSz : Nat) : Handler Unit :=
  if payloadSz = 0 then pure ()
  else do
    let payload ← load .slot ⟨0, e.bufLen⟩ uringReqHeaderSize payloadSz
    store .scratch ⟨0, e.scratchLen⟩ first payload.1

theorem assembleBody_eq (e : Entry) (first payloadSz : Nat) :
    assembleBody e first payloadSz =
      if first = 0 then copyPayload e first payloadSz
      else (do
        let opIn ← load .slot ⟨opInOff, fuseUringOpInOutSz⟩ 0 first
        store .scratch ⟨0, e.scratchLen⟩ 0 opIn.1
        copyPayload e first payloadSz) := rfl

/-- Sizes that fit the two areas are copied inside them. -/
theorem assembleBody_staysInside {payloadBytes first payloadSz : Nat} (e : Entry)
    (opIn : first ≤ fuseUringOpInOutSz) (payload : payloadSz ≤ payloadBytes) :
    (assembleBody e first payloadSz).Ensures (fun _ _ => True)
      (fun op _ => op.StaysInside payloadBytes) (fun _ => True) := by
  have copiesOpIn : (load .slot ⟨opInOff, fuseUringOpInOutSz⟩ 0 first).Ensures
      (fun _ _ => True) (fun op _ => op.StaysInside payloadBytes) fun _ => True :=
    fun _ _ => ⟨.inr (.inr (.inl ⟨Nat.le_refl _, Nat.add_le_add_left opIn _⟩)), trivial⟩
  have copiesPayload : (load .slot ⟨0, e.bufLen⟩ uringReqHeaderSize payloadSz).Ensures
      (fun _ _ => True) (fun op _ => op.StaysInside payloadBytes) fun _ => True := by
    refine fun _ _ => ⟨.inr (.inr (.inr ⟨?_, ?_⟩)), trivial⟩
    · exact Nat.le_of_eq (Nat.zero_add _).symm
    · exact Nat.add_le_add (Nat.le_of_eq (Nat.zero_add _)) payload
  have stores (off : Nat) (bytes : Bytes)
      (fits : off + bytes.length ≤ fuseUringOpInOutSz + payloadBytes) :
      (store .scratch ⟨0, e.scratchLen⟩ off bytes).Ensures (fun _ _ => True)
        (fun op _ => op.StaysInside payloadBytes) fun _ => True := by
    refine fun _ _ => ⟨⟨Nat.zero_le _, ?_⟩, trivial⟩
    simpa using fits
  have rest : (copyPayload e first payloadSz).Ensures (fun _ _ => True)
      (fun op _ => op.StaysInside payloadBytes) fun _ => True := by
    unfold copyPayload
    split
    · trivial
    · refine copiesPayload.bind fun bytes _ => stores first bytes.1 ?_
      rw [bytes.2]
      exact Nat.add_le_add opIn payload
  rw [assembleBody_eq]
  split
  · exact rest
  · refine copiesOpIn.bind fun bytes _ => (stores 0 bytes.1 ?_).bind fun _ _ => rest
    rw [Nat.zero_add, bytes.2]
    exact Nat.le_add_right_of_le opIn

section Slot

variable {σ : Type} (fs : Filesystem σ) (w : World σ)

/-- Publishing a reply neither copies nor leaves the slot's fields. -/
theorem trace_publish (payloadBytes : Nat) (e : Entry) (outh : FuseOutHeader) (size : UInt32) :
    ∀ ev ∈ trace (World.step fs) (publish e outh size) w,
      ev.1.StaysInside payloadBytes ∧ ¬ev.1.Copies := by
  have log : (trace (World.step fs) (publish e outh size) w).map Sigma.fst =
      [.store .slot ⟨0, e.bufLen⟩ 0 (FuseOutHeader.codec.enc outh),
        .store .slot ⟨0, e.bufLen⟩ payloadSzOff (Codec.u32.enc size)] := rfl
  intro ev member
  have among := List.mem_map_of_mem (f := Sigma.fst) member
  rw [log, List.mem_cons, List.mem_singleton] at among
  rcases among with is | is
  · rw [is]
    exact ⟨.inl (by simp [Span.Within]), id⟩
  · rw [is]
    exact ⟨.inr (.inl (by simp [Span.Within])), id⟩

/-- A property of the two reads of the headers and of all that follows. -/
theorem trace_handleOne_forall (good : Op → Prop) (opts : SessionOptions) (payloadBytes : Nat)
    (e : Entry)
    (ent : good (.load .slot ⟨0, e.bufLen⟩ ringEntOff FuseUringEntInOut.codec.size))
    (header : good (.load .slot ⟨0, e.bufLen⟩ 0 FuseInHeader.codec.size))
    (rest : ∀ ev ∈ trace (World.step fs)
      (afterHeaders w opts payloadBytes { e with commitId := (slotEnt w).commitId }) w,
        good ev.1) :
    ∀ ev ∈ trace (World.step fs) (handleOne opts payloadBytes e) w, good ev.1 := by
  intro ev member
  rw [trace_handleOne, List.mem_append, List.mem_append] at member
  rcases member with first | second | later
  · rw [List.mem_singleton.mp first]
    exact ent
  · rw [List.mem_singleton.mp second]
    exact header
  · exact rest ev later

variable {w} {payloadBytes : Nat} {e : Entry} (opts : SessionOptions)

/-- A request that is refused is not copied. -/
theorem trace_handleOne_oversize (oversized : Oversize w e) :
    ∀ ev ∈ trace (World.step fs) (handleOne opts payloadBytes e) w,
      ev.1.StaysInside payloadBytes ∧ ¬ev.1.Copies := by
  have same := (oversize_commitId w e (slotEnt w).commitId).mpr oversized
  have ent : (⟨0 + ringEntOff, FuseUringEntInOut.codec.size⟩ : Span).Within
      ⟨ringEntOff, FuseUringEntInOut.codec.size⟩ := by simp [Span.Within]
  have header : (⟨0 + 0, FuseInHeader.codec.size⟩ : Span).Within
      ⟨0, FuseInHeader.codec.size⟩ := by simp [Span.Within]
  refine trace_handleOne_forall fs w (fun op => op.StaysInside payloadBytes ∧ ¬op.Copies) opts
    payloadBytes e ⟨.inr (.inl ent), not_not.mpr (.inr ent)⟩
    ⟨.inl header, not_not.mpr (.inl header)⟩ ?_
  rw [afterHeaders, if_pos same]
  exact trace_publish fs w payloadBytes _ _ _

/-- Where the payload fits its area, a request that passes the check stays inside. -/
theorem trace_handleOne_passes (passes : ¬Oversize w e)
    (fits : (slotEnt w).payloadSz.toNat ≤ payloadBytes) :
    ∀ ev ∈ trace (World.step fs) (handleOne opts payloadBytes e) w,
      ev.1.StaysInside payloadBytes := by
  have same := mt (oversize_commitId w e (slotEnt w).commitId).mp passes
  refine trace_handleOne_forall fs w (·.StaysInside payloadBytes) opts payloadBytes e
    (.inr (.inl (by simp [Span.Within]))) (.inl (by simp [Span.Within])) ?_
  rw [afterHeaders, if_neg same, trace_bind, trace_bind]
  intro ev member
  rcases List.mem_append.mp member with copied | later
  · exact ((assembleBody_staysInside _ (slotFirstArg_le passes) fits).sound (World.step fs)
      (fun _ _ => trivial) w).1 ev copied
  · rcases List.mem_append.mp later with dispatched | published
    · have errors : fs.ErrorsSatisfy fun _ => True := fun _ _ _ _ => trivial
      exact ((dispatch_bounds opts errors _ _ (slotReplier w payloadBytes) _).1 ev
        dispatched).staysInside
    · exact (trace_publish fs _ payloadBytes _ _ _ ev published).1

/-- A payload that passes the check is read in one piece. -/
theorem mem_trace_payload (passes : ¬Oversize w e)
    (nonempty : (slotEnt w).payloadSz.toNat ≠ 0) :
    ∃ ev ∈ trace (World.step fs) (handleOne opts payloadBytes e) w,
      ev.1 = .load .slot ⟨0, e.bufLen⟩ uringReqHeaderSize (slotEnt w).payloadSz.toNat := by
  have same := mt (oversize_commitId w e (slotEnt w).commitId).mp passes
  -- The second copy is made whether or not there was a first.
  have read (v : World σ) : ∃ ev ∈ trace (World.step fs)
      (copyPayload { e with commitId := (slotEnt w).commitId } (slotFirstArg w)
        (slotEnt w).payloadSz.toNat) v,
      ev.1 = .load .slot ⟨0, e.bufLen⟩ uringReqHeaderSize (slotEnt w).payloadSz.toNat := by
    rw [copyPayload, if_neg nonempty, trace_bind]
    exact ⟨_, List.mem_append_left _ List.mem_cons_self, rfl⟩
  have copied : ∃ ev ∈ trace (World.step fs)
      (assembleBody { e with commitId := (slotEnt w).commitId } (slotFirstArg w)
        (slotEnt w).payloadSz.toNat) w,
      ev.1 = .load .slot ⟨0, e.bufLen⟩ uringReqHeaderSize (slotEnt w).payloadSz.toNat := by
    rw [assembleBody_eq]
    split
    · exact read w
    · rw [trace_bind, trace_bind]
      obtain ⟨ev, member, is⟩ := read _
      exact ⟨ev, List.mem_append_right _ (List.mem_append_right _ member), is⟩
  obtain ⟨ev, member, is⟩ := copied
  refine ⟨ev, ?_, is⟩
  rw [trace_handleOne, afterHeaders, if_neg same, trace_bind]
  exact List.mem_append_right _ (List.mem_append_right _ (List.mem_append_left _ member))

/-- The check lets a body pass if it fits the scratch, which is as large as `op_in` and
the payload area together. -/
theorem oversize_iff (allocated : e.Allocated payloadBytes)
    (beyond : payloadBytes < (slotEnt w).payloadSz.toNat) :
    Oversize w e ↔ payloadBytes + 128 < (slotEnt w).payloadSz.toNat ∨
      payloadBytes + 168 < (slotHeader w).len.toNat := by
  have room : e.scratchLen = 128 + payloadBytes := by
    rw [allocated]
    rfl
  have opIn : fuseUringOpInOutSz = 128 := rfl
  have header : FuseInHeader.codec.size = 40 := rfl
  unfold Oversize slotBodyLen slotFirstArg firstArgSize
  rw [room, opIn, header]
  -- Either the header leaves something for `in_args[0]` or it counts too little.
  split <;> omega

end Slot

/-! ### The main result -/

section Safety

variable {σ : Type} (fs : Filesystem σ) (opts : SessionOptions) (payloadBytes : Nat) (e : Entry)
  (w : World σ)

/-- The first argument does not fit `op_in`, or the others do not fit the payload area. -/
def Misfit : Prop :=
  fuseUringOpInOutSz < slotFirstArg w ∨ payloadBytes < (slotEnt w).payloadSz.toNat

/-- The request is answered with EIO, under its own unique id and without a payload, nothing
of it is copied, and the daemon does not see it. -/
structure Refused : Prop where
  error : (slotOutHeader (run (World.step fs) (handleOne opts payloadBytes e) w).2).error =
    negErrno Errc.ioError
  unique : (slotOutHeader (run (World.step fs) (handleOne opts payloadBytes e) w).2).unique =
    (slotHeader w).unique
  payloadSz : (slotEnt (run (World.step fs) (handleOne opts payloadBytes e) w).2).payloadSz = 0
  uncopied : ∀ ev ∈ trace (World.step fs) (handleOne opts payloadBytes e) w, ¬ev.1.Copies
  uncalled : callbacks (trace (World.step fs) (handleOne opts payloadBytes e) w) = []

/-- Every operation stays inside the buffers, and sizes that do not fit are refused. -/
structure SafelyHandled : Prop where
  inside : ∀ ev ∈ trace (World.step fs) (handleOne opts payloadBytes e) w,
    ev.1.StaysInside payloadBytes
  refuses : Misfit payloadBytes w → Refused fs opts payloadBytes e w

variable {fs opts payloadBytes e w}

theorem refused_of_oversize (oversized : Oversize w e) : Refused fs opts payloadBytes e w := by
  obtain ⟨result, uncalled⟩ := handleOne_oversize fs w opts payloadBytes e oversized
  refine ⟨?_, ?_, ?_, fun ev member => ?_, uncalled⟩
  · rw [result, published_header]
    rfl
  · rw [result, published_header]
    rfl
  · rw [result, published_payloadSz]
  · exact (trace_handleOne_oversize fs opts oversized ev member).2

theorem safelyHandled_of_oversize (oversized : Oversize w e) :
    SafelyHandled fs opts payloadBytes e w := by
  refine ⟨fun ev member => ?_, fun _ => refused_of_oversize oversized⟩
  exact (trace_handleOne_oversize fs opts oversized ev member).1

/-- Where the payload fits its area, the check is right. -/
theorem safelyHandled_of_fits (fits : (slotEnt w).payloadSz.toNat ≤ payloadBytes) :
    SafelyHandled fs opts payloadBytes e w := by
  by_cases oversized : Oversize w e
  · exact safelyHandled_of_oversize oversized
  · have opIn := slotFirstArg_le oversized
    refine ⟨trace_handleOne_passes fs opts oversized fits, ?_⟩
    rintro (large | beyond)
    · exact absurd large (Nat.not_lt.mpr opIn)
    · exact absurd beyond (Nat.not_lt.mpr fits)

/-- A payload that does not fit its area and passes the check is read past the slot. -/
theorem not_safelyHandled (beyond : payloadBytes < (slotEnt w).payloadSz.toNat)
    (passes : ¬Oversize w e) : ¬SafelyHandled fs opts payloadBytes e w := by
  intro safe
  obtain ⟨ev, member, read⟩ := mem_trace_payload fs opts passes (Nat.ne_zero_of_lt beyond)
  have inside := safe.inside ev member
  rw [read] at inside
  have header : 0 + FuseInHeader.codec.size ≤ uringReqHeaderSize := by decide
  have ent : ringEntOff + FuseUringEntInOut.codec.size ≤ uringReqHeaderSize := by decide
  have opIn : opInOff + fuseUringOpInOutSz ≤ uringReqHeaderSize := by decide
  -- The copy begins behind the header's fields and ends behind the payload area.
  rcases inside with ⟨-, ends⟩ | ⟨-, ends⟩ | ⟨-, ends⟩ | ⟨-, ends⟩ <;> dsimp only at ends <;> omega

end Safety

/-- `handle_one` is safe on a slot unless its payload is beyond the payload area by no more
than `op_in` has room for. -/
theorem handleOne_safe_iff {σ : Type} (fs : Filesystem σ) (opts : SessionOptions)
    (payloadBytes : Nat) (e : Entry) (allocated : e.Allocated payloadBytes) (w : World σ) :
    SafelyHandled fs opts payloadBytes e w ↔
      (slotEnt w).payloadSz.toNat ≤ payloadBytes ∨
        payloadBytes + 128 < (slotEnt w).payloadSz.toNat ∨
        payloadBytes + 168 < (slotHeader w).len.toNat := by
  by_cases fits : (slotEnt w).payloadSz.toNat ≤ payloadBytes
  · exact ⟨fun _ => .inl fits, fun _ => safelyHandled_of_fits fits⟩
  · have beyond : payloadBytes < (slotEnt w).payloadSz.toNat := Nat.lt_of_not_le fits
    rw [or_iff_right fits, ← oversize_iff allocated beyond]
    refine ⟨?_, safelyHandled_of_oversize⟩
    intro safe
    by_contra passes
    exact not_safelyHandled beyond passes safe

theorem handleOne_safe_iff_lookup :
    SafelyHandled (Filesystem.failing Errc.ioError) {} 4096 (Entry.start 4096)
      (layOut (idle ()) splitLookup [97, 98] [[0]]) := by
  have sizes : KernelSizes 4096 splitLookup [97, 98] [[0]] :=
    ⟨by decide, by decide, by decide⟩
  refine (handleOne_safe_iff _ {} 4096 (Entry.start 4096) rfl _).mpr (.inl ?_)
  rw [(layOut_holds (idle ()) sizes).payloadSz]
  decide

/-! ### A payload one byte too long -/

/-- LOOKUPX of a name of 4096 bytes and its NUL, all in the payload area. -/
def longLookup : FuseInHeader :=
  { len := 4137, opcode := Opcode.lookupx.code, unique := 9, nodeid := 1 }

/-- A name that takes `n` bytes of the payload area. -/
def longName (n : Nat) : List Bytes := [List.replicate n 0]

theorem length_longName (n : Nat) : (longName n).flatten.length = n := by
  simp [longName]

def longSlot : World Unit := layOut (idle ()) longLookup [] (longName 4097)

theorem longSlot_holds : HoldsRequest longSlot longLookup [] (longName 4097) := by
  have sizes : KernelSizes 4097 longLookup [] (longName 4097) := by
    refine ⟨Nat.zero_le _, Nat.le_of_eq (length_longName _), ?_⟩
    rw [List.flatten_cons, List.nil_append, length_longName]
    rfl
  exact layOut_holds (idle ()) sizes

/-- A payload of 4097 bytes for a slot whose payload area has 4096: it passes the check,
and the copy reads the byte behind the slot's buffer. -/
theorem handleOne_reads_past_payload :
    ¬SafelyHandled (Filesystem.failing Errc.ioError) {} 4096 (Entry.start 4096) longSlot ∧
      ∃ ev ∈ trace (World.step (Filesystem.failing Errc.ioError))
          (handleOne {} 4096 (Entry.start 4096)) longSlot,
        ev.1 = .load .slot ⟨0, uringReqHeaderSize + 4096⟩ uringReqHeaderSize 4097 := by
  have size : (slotEnt longSlot).payloadSz.toNat = 4097 := by
    rw [longSlot_holds.payloadSz, length_longName]
  have beyond : 4096 < (slotEnt longSlot).payloadSz.toNat := by
    rw [size]
    decide
  have allocated : (Entry.start 4096).Allocated 4096 := rfl
  have passes : ¬Oversize longSlot (Entry.start 4096) := by
    rw [oversize_iff allocated beyond, size, longSlot_holds.header]
    decide
  refine ⟨not_safelyHandled beyond passes, ?_⟩
  obtain ⟨ev, member, read⟩ := mem_trace_payload (Filesystem.failing Errc.ioError) {} passes
    (Nat.ne_zero_of_lt beyond)
  refine ⟨ev, member, ?_⟩
  rw [read, size]
  rfl

end Fex
