import Fex.Sequential
import Fex.Transport

/-!
# Replies are well formed and in bounds

## Main result

`replies_in_bounds`: whatever a slot contains, dispatch writes inside the reply area
only and ends with a length that fits it, every `Replier` carved inside a compound
included; and `handle_one` publishes a header and a size that agree with each other,
with the request and with the payload area.

## Proof strategy

A leaf dispatch is covered by its contract (`dispatchLeaf_ensures`). A compound's
operations are those of its rounds, each confined to the area carved for it, and the
loop's own accesses; its final length is the output cursor, which never leaves the
area (`Round.next_outP_le`).
-/
namespace Fex

open Foundation Program

/-- Every byte the operation writes lies in `area` of the slot. -/
def Op.WritesInside (area : Span) : Op → Prop
  | .store blk span off bytes =>
    blk = .slot ∧ area.base ≤ span.base + off ∧
      span.base + off + bytes.length ≤ area.base + area.len
  | .load .. | .call _ | .setInitDone => True

/-- The operation leaves the scratch as it is, and in the slot it accesses `area` only. -/
def Op.KeepsTo (area : Span) : Op → Prop
  | .load .slot span off len => (⟨span.base + off, len⟩ : Span).Within area
  | .store .slot span off bytes => (⟨span.base + off, bytes.length⟩ : Span).Within area
  | .store .scratch _ _ _ => False
  | .load .scratch _ _ _ | .call _ | .setInitDone => True

section KeepsTo

variable {area : Span} {op : Op}

theorem Op.KeepsTo.mono {inner : Span} (keeps : op.KeepsTo inner) (inside : inner.Within area) :
    op.KeepsTo area := by
  unfold Op.KeepsTo at *
  split
  · exact keeps.trans inside
  · exact keeps.trans inside
  · exact keeps
  all_goals trivial

theorem Op.KeepsTo.writesInside (keeps : op.KeepsTo area) : op.WritesInside area := by
  cases op with
  | store blk span off bytes =>
    cases blk with
    | slot => exact ⟨rfl, keeps.1, keeps.2⟩
    | scratch => exact keeps.elim
  | load | call | setInitDone => trivial

/-- An access in bounds of a span is one inside that span. -/
theorem within_of_bounds {span : Span} {off len : Nat} (fits : off + len ≤ span.len) :
    (⟨span.base + off, len⟩ : Span).Within span := by
  constructor
  · exact Nat.le_add_right _ _
  · dsimp only
    omega

theorem Op.SlotWithin.keepsTo (slot : op.SlotWithin area) : op.KeepsTo area := by
  cases op with
  | load blk span off len =>
    obtain ⟨rfl, inside, fits⟩ := slot
    exact (within_of_bounds fits).trans inside
  | store blk span off bytes =>
    obtain ⟨rfl, inside, fits⟩ := slot
    exact (within_of_bounds fits).trans inside
  | call | setInitDone => trivial

theorem ReadsBody.keepsTo {body : Span} {limit : Nat} (reads : ReadsBody body limit op) :
    op.KeepsTo area := by
  obtain ⟨off, len, rfl, _⟩ := reads
  trivial

theorem Op.Leaf.keepsTo {h : FuseInHeader} {body : Span} {r : Replier}
    (leaf : op.Leaf h body r) : op.KeepsTo r.span := by
  rcases leaf with reads | serves
  · exact reads.keepsTo
  · cases op with
    | load blk span off len =>
      obtain ⟨rfl, rfl, fits⟩ := serves
      exact within_of_bounds fits
    | store blk span off bytes =>
      obtain ⟨rfl, rfl, fits⟩ := serves
      exact within_of_bounds fits
    | call | setInitDone => trivial

end KeepsTo

/-! ### Dispatch -/

section Dispatch

variable {σ : Type} {fs : Filesystem σ} {allowed : Errc → Prop} (opts : SessionOptions)

/-- A round keeps to the area carved for it. -/
theorem Round.log_keepsTo (r : Replier) (t : Round σ) :
    ∀ e ∈ t.log fs (dispatchLeaf opts) r, e.1.KeepsTo (t.replier r).span := by
  rw [Round.log, Round.handler_leaf]
  exact fun e logged => (dispatchLeaf_leaf fs _ opts _ _ _ e logged).keepsTo

/-- The carved area lies inside the area it was carved from. -/
theorem Round.replier_within (r : Replier) (t : Round σ)
    (room : t.start.outP + FuseOutHeader.codec.size ≤ r.cap) :
    (t.replier r).span.Within r.span := by
  simp only [Span.Within, Replier.span, Round.replier, carve]
  omega

/-- The rounds of a compound had room for their out-headers, and its output cursor
ends inside the reply area. -/
theorem compoundProgress_room (errors : fs.ErrorsSatisfy allowed) (body : Span) (r : Replier)
    (w : World σ) (least : FuseCompoundOut.codec.size ≤ r.cap) :
    (∀ t ∈ (compoundProgress fs (dispatchLeaf opts) r body w).rounds,
      t.start.outP + FuseOutHeader.codec.size ≤ r.cap) ∧
    (compoundProgress fs (dispatchLeaf opts) r body w).last.outP ≤ r.cap := by
  have tame := dispatchLeaf_tame opts errors
  obtain ⟨each, last⟩ := runFrames_invariant (·.outP ≤ r.cap)
    (fun t room _ => t.next_outP_le r tame room)
    (compoundFrames (w.mem .scratch) body).1 (compoundStart r w) least
  exact ⟨fun t member => (each t member).1, last⟩

theorem handleCompound_bounds (errors : fs.ErrorsSatisfy allowed) (h : FuseInHeader)
    (body : Span) (r : Replier) (w : World σ) :
    (∀ e ∈ trace (World.step fs) (handleCompound (dispatchLeaf opts) h body r) w,
      e.1.KeepsTo r.span) ∧
    Answered allowed r
      (run (World.step fs) (handleCompound (dispatchLeaf opts) h body r) w).1 := by
  have invalid : Answered allowed r (replyError r Errc.invalidArgument) :=
    answered_error r (.inr (by simp [ownErrors]))
  by_cases small : body.len < FuseCompoundIn.codec.size ∨ r.cap < FuseCompoundOut.codec.size
  · rw [handleCompound_small h small]
    exact ⟨fun e member => absurd member List.not_mem_nil, invalid⟩
  · have spec := handleCompound_spec (dispatchLeaf_tame opts errors) h body r w small
    obtain ⟨room, last⟩ := compoundProgress_room opts errors body r w (by omega)
    refine ⟨?_, ?_⟩
    · -- An operation belongs to a round, to the scan of the body or to the compound's own reply.
      intro e member
      rcases spec.events e member with ⟨t, among, logged⟩ | reads | own
      · exact (t.log_keepsTo opts r e logged).mono (t.replier_within r (room t among))
      · exact reads.keepsTo
      · exact own.keepsTo
    · rw [spec.result, verdict]
      dsimp only
      split
      · exact answered_data r last
      · exact invalid

theorem dispatch_bounds (errors : fs.ErrorsSatisfy allowed) (h : FuseInHeader) (body : Span)
    (r : Replier) (w : World σ) :
    (∀ e ∈ trace (World.step fs) (dispatch opts h body r) w, e.1.KeepsTo r.span) ∧
    Answered allowed r (run (World.step fs) (dispatch opts h body r) w).1 := by
  by_cases compound : h.opcode = Opcode.compound.code
  · rw [dispatch_compound opts h body r compound]
    exact handleCompound_bounds opts errors h body r w
  · rw [dispatch_leaf opts h body r compound]
    exact ⟨fun e logged => (dispatchLeaf_leaf fs w opts h body r e logged).keepsTo,
      (dispatchLeaf_replied fs w opts h body r errors).toAnswered⟩

end Dispatch

/-! ### The published reply -/

/-- Negating a positive error does not overflow. -/
theorem negErrno_nonpos {e : Errc} (positive : 0 < e) : negErrno e ≤ 0 := by
  have value : 0 < e.toInt := by simpa [Int32.lt_iff_toInt_lt] using positive
  have bound := e.toInt_lt
  rw [Int32.le_iff_toInt_le, negErrno, Int32.toInt_neg, Int.bmod_def]
  simp only [Int32.toInt_zero]
  omega

theorem Answered.negErr_nonpos {r r' : Replier} (answered : Answered (0 < ·) r r') :
    r'.negErr ≤ 0 := by
  rcases answered.cause with zero | ⟨e, known, negated⟩
  · rw [zero]
    decide
  · rw [negated]
    have own : ownErrors.all (0 < ·) = true := by decide
    rcases known with positive | member
    · exact negErrno_nonpos positive
    · exact negErrno_nonpos (of_decide_eq_true (List.all_eq_true.mp own e member))

/-- The slot of `w'` holds a well-formed reply to the request in the slot of `w`. -/
structure WellFormedReply {σ : Type} (payloadBytes : Nat) (w w' : World σ) : Prop where
  unique : (slotOutHeader w').unique = (slotHeader w).unique
  error : (slotOutHeader w').error ≤ 0
  len : (slotOutHeader w').len.toNat =
    FuseOutHeader.codec.size + (slotEnt w').payloadSz.toNat
  fits : (slotEnt w').payloadSz.toNat ≤ payloadBytes
  failed : (slotOutHeader w').error ≠ 0 → (slotEnt w').payloadSz = 0

/-- Publishing a `Replier` that was answered within 32 bits. -/
theorem published_wellFormed {σ : Type} {w v : World σ} {payloadBytes : Nat} {r : Replier}
    (bounded : payloadBytes + FuseOutHeader.codec.size < 2 ^ 32)
    (answered : Answered (0 < ·) (slotReplier w payloadBytes) r) :
    WellFormedReply payloadBytes w (published v (replyHeader r) (replySize32 r)) := by
  have fits : r.len ≤ payloadBytes := answered.fits
  have size : (replySize32 r).toNat = if r.negErr ≠ 0 then 0 else r.len := by
    unfold replySize32
    split
    · rfl
    · exact UInt32.toNat_ofNat_of_lt' (by simp only [UInt32.size]; omega)
  refine ⟨?_, ?_, ?_, ?_, ?_⟩
  · rw [published_header]
    exact answered.unique
  · rw [published_header]
    exact answered.negErr_nonpos
  · -- The sum is taken in 32 bits; the bound is about the sum.
    rw [published_header, published_payloadSz, size]
    refine UInt32.toNat_ofNat_of_lt' ?_
    simp only [UInt32.size]
    split <;> omega
  · rw [published_payloadSz, size]
    split <;> omega
  · rw [published_header, published_payloadSz]
    intro failed
    exact if_pos failed

theorem handleOne_wellFormed {σ : Type} (opts : SessionOptions) (fs : Filesystem σ)
    (errors : fs.ErrorsSatisfy (0 < ·)) (payloadBytes : Nat)
    (bounded : payloadBytes + FuseOutHeader.codec.size < 2 ^ 32) (e : Entry) (w : World σ) :
    WellFormedReply payloadBytes w (run (World.step fs) (handleOne opts payloadBytes e) w).2 ∧
      (run (World.step fs) (handleOne opts payloadBytes e) w).1.1.commitId =
        (slotEnt w).commitId := by
  by_cases oversized : Oversize w e
  · -- `handle_one` refuses the request itself, with the header of an EIO reply.
    have refused : Answered (0 < ·) (slotReplier w payloadBytes)
        (replyError (slotReplier w payloadBytes) Errc.ioError) :=
      answered_error _ (.inr (by simp [ownErrors]))
    have reply : WellFormedReply payloadBytes w (published w _ _) :=
      published_wellFormed bounded refused
    rw [← oversizeHeader_eq, replySize32_error] at reply
    rw [(handleOne_oversize fs w opts payloadBytes e oversized).1]
    exact ⟨reply, rfl⟩
  · obtain ⟨result, -⟩ := handleOne_dispatches fs w opts payloadBytes e oversized
    have answered : Answered (0 < ·) (slotReplier w payloadBytes)
        (run (World.step fs) (slotDispatch w opts payloadBytes) (assembled w)).1 := by
      rw [slotDispatch]
      exact (dispatch_bounds opts errors _ _ _ _).2
    rw [result]
    exact ⟨published_wellFormed bounded answered, rfl⟩

/-- Every reply is in bounds and well formed: `dispatch` for any header, body, `Replier`
and world, the sub-requests of a compound in the areas carved for them, and the slot
as `handle_one` leaves it. -/
theorem replies_in_bounds {σ : Type} (opts : SessionOptions) (fs : Filesystem σ)
    (errors : fs.ErrorsSatisfy (0 < ·)) :
    (∀ h body r (w : World σ),
      (∀ e ∈ trace (World.step fs) (dispatch opts h body r) w, e.1.WritesInside r.span) ∧
      (run (World.step fs) (dispatch opts h body r) w).1.len ≤ r.cap) ∧
    (∀ h body r (w : World σ), FuseCompoundOut.codec.size ≤ r.cap →
      Comprises fs opts r h body w ∧
      ∀ t ∈ (compoundProgress fs (dispatch opts) r body w).rounds,
        (t.replier r).span.Within r.span ∧
        (∀ e ∈ t.log fs (dispatch opts) r, e.1.WritesInside (t.replier r).span) ∧
        (t.result fs (dispatch opts) r).1.len ≤ (t.replier r).cap) ∧
    (∀ payloadBytes (e : Entry) (w : World σ), e.Allocated payloadBytes →
      payloadBytes + FuseOutHeader.codec.size < 2 ^ 32 →
      (slotEnt w).payloadSz.toNat ≤ payloadBytes →
      WellFormedReply payloadBytes w (run (World.step fs) (handleOne opts payloadBytes e) w).2 ∧
      (run (World.step fs) (handleOne opts payloadBytes e) w).1.1.commitId =
        (slotEnt w).commitId) := by
  refine ⟨?_, ?_, ?_⟩
  · intro h body r w
    obtain ⟨keeps, answered⟩ := dispatch_bounds opts errors h body r w
    exact ⟨fun e logged => (keeps e logged).writesInside, answered.fits⟩
  · intro h body r w least
    refine ⟨handleCompound_comprises fs opts r h body w, fun t member => ?_⟩
    rw [compoundProgress, runFrames_dispatch] at member
    have room := (compoundProgress_room opts errors body r w least).1 t member
    refine ⟨t.replier_within r room, ?_, ?_⟩
    · rw [Round.log, Round.handler_dispatch]
      exact fun e logged => (t.log_keepsTo opts r e logged).writesInside
    · rw [Round.result_dispatch]
      exact (t.result_tame r (dispatchLeaf_tame opts errors)).1.fits
  · intro payloadBytes e w _ bounded _
    exact handleOne_wellFormed opts fs errors payloadBytes bounded e w

/-- A COMPOUND of a LOOKUPX and a STATX of what it leads to. -/
def compoundRequest : FuseInHeader := { len := 170, opcode := Opcode.compound.code, unique := 3 }

/-- The request in a slot: `fuse_compound_in` in `op_in`, the sub-requests behind it. -/
def compoundSlot : World Unit :=
  layOut (idle ()) compoundRequest (Blob.zero FuseCompoundIn.codec.size).1
    [lookupOfA.encode, statOfProduced.encode]

/-- Both sub-requests are answered, each in its own part of the payload area. -/
theorem replies_in_bounds_compound :
    let fs := Filesystem.leading 9
    let w' := (run (World.step fs) (handleOne {} 4096 (Entry.start 4096)) compoundSlot).2
    let rounds := (compoundProgress fs (dispatch {}) (slotReplier compoundSlot 4096) ⟨0, 130⟩
      (assembled compoundSlot)).rounds
    (slotOutHeader w').error = 0 ∧ (slotEnt w').payloadSz = 368 ∧
      WellFormedReply 4096 compoundSlot w' ∧ rounds.length = 2 ∧
      ∀ t ∈ rounds, (t.replier (slotReplier compoundSlot 4096)).span.Within ⟨288, 4096⟩ := by
  intro fs w' rounds
  obtain ⟨-, carved, published⟩ :=
    replies_in_bounds {} fs (Filesystem.leading_errorsSatisfy 9 (by decide))
  refine ⟨by decide +kernel, by decide +kernel, ?_, by decide +kernel, fun t round => ?_⟩
  · exact (published 4096 (Entry.start 4096) compoundSlot rfl (by decide) (by decide +kernel)).1
  · exact ((carved compoundRequest ⟨0, 130⟩ (slotReplier compoundSlot 4096)
      (assembled compoundSlot) (by decide)).2 t round).1

end Fex
