import Fex.Sequential

/-!
# COMPOUND refines sequential dispatch

## Main result

`handleCompound_refines_sequential`: on a body that is a header and any list of
encoded sub-requests, `handle_compound` does what `Sequential.exec` does, and its
reply is the zeroed `fuse_compound_out` followed by the encoded sub-replies.

## Proof strategy

The scan of the body finds the sub-requests where they were laid out. A `Round` of
the loop and a step of the sequential machine agree on cursor, produced nodeids and
world, so an induction over the list relates the two runs. That the reply area holds
the replies encoded so far is an invariant of the sequential machine.
-/
namespace Fex

open Foundation Program

/-! ### Scanning what was laid out -/

/-- The frame found where a sub-request was laid out. -/
theorem frameAt_encode (m : Memory) (body : Span) (p : Nat) (q : SubRequest)
    (laid : m.read (body.base + p) q.encode.length = q.encode)
    (inside : p + q.encode.length ≤ body.len) :
    frameAt m body p = some (q.frame (body.base + p)) := by
  rw [q.length_encode] at inside
  have sizes : frameHdrs = FuseCompoundReqIn.codec.size + FuseInHeader.codec.size := rfl
  have whole : q.encode.length = FuseCompoundReqIn.codec.size +
      (FuseInHeader.codec.size + q.payload.length) := by
    rw [q.length_encode]
    omega
  rw [whole, Memory.read_add, Memory.read_add, SubRequest.encode] at laid
  obtain ⟨req, tail⟩ := List.append_inj laid (by simp)
  obtain ⟨header, -⟩ := List.append_inj tail (by simp)
  have length := q.len_eq
  simp only [frameAt, ← Nat.add_assoc, req, header, Codec.dec_enc]
  rw [if_neg (by omega)]
  simp only [SubRequest.frame, Option.some.injEq, Frame.mk.injEq, Span.mk.injEq, true_and]
  omega

theorem scanFrames_encode (m : Memory) (body : Span) (subs : List SubRequest) (fuel p : Nat)
    (laid : m.read (body.base + p) (subs.flatMap SubRequest.encode).length =
      subs.flatMap SubRequest.encode)
    (ends : body.len = p + (subs.flatMap SubRequest.encode).length)
    (enough : body.len ≤ p + fuel) :
    scanFrames m body fuel p = (placeFrames (body.base + p) subs, true) := by
  induction subs generalizing fuel p with
  | nil =>
    have ended : ¬p < body.len := by simp [ends]
    cases fuel with
    | zero => rfl
    | succ fuel => simp only [scanFrames, if_neg ended, placeFrames]
  | cons q rest ih =>
    obtain ⟨here, later⟩ := Sequential.laid_cons laid
    have size := q.length_encode
    have progress : 0 < frameHdrs := by simp [frameHdrs]
    rw [List.flatMap_cons, List.length_append] at ends
    have more : p < body.len := by omega
    cases fuel with
    | zero => omega
    | succ fuel =>
      have found := frameAt_encode m body p q here (by omega)
      have next := ih fuel (p + q.encode.length) (by rw [← Nat.add_assoc]; exact later) (by omega)
        (by omega)
      have advance : p + frameHdrs + (q.frame (body.base + p)).payload.len =
          p + q.encode.length := by
        show p + frameHdrs + q.payload.length = _
        omega
      simp only [scanFrames, if_pos more, found, advance, next, placeFrames, Nat.add_assoc]

/-! ### A round is a step of the sequential machine -/

section Agreement

variable {σ : Type} (fs : Filesystem σ) (opts : SessionOptions) (r : Replier)

/-- The loop's cursor and the sequential machine are at the same point. -/
structure Agrees (c : Cursor σ) (s : Sequential σ) : Prop where
  used : c.outP = s.used
  produced : c.produced = s.produced
  world : c.world = s.world

/-- The reply of a round, as the sequential machine sees it. -/
def Round.reply (t : Round σ) : SubReply :=
  Sequential.reply t.header.unique (t.result fs (dispatchLeaf opts) r).1
    (t.result fs (dispatchLeaf opts) r).2

theorem Round.length_reply (t : Round σ) :
    (t.reply fs opts r).data.length = if (t.result fs (dispatchLeaf opts) r).1.negErr ≠ 0 then 0
      else (t.result fs (dispatchLeaf opts) r).1.len := by
  simp only [Round.reply, Sequential.reply]
  split <;> simp

theorem Round.outHeader_eq (t : Round σ) :
    t.outHeader fs (dispatchLeaf opts) r = (t.reply fs opts r).header := by
  simp only [Round.outHeader, subOutHeader, SubReply.header, Round.length_reply]
  rfl

/-- The reply fits what was left of the reply area. -/
theorem Round.reply_fits (errors : fs.ErrorsSatisfy (· ≠ 0)) (t : Round σ)
    (room : t.start.outP + FuseOutHeader.codec.size ≤ r.cap) :
    t.start.outP + (FuseOutHeader.codec.size + (t.reply fs opts r).data.length) ≤ r.cap := by
  have fits := (t.result_tame r (dispatchLeaf_tame opts errors)).1.fits
  have length := t.length_reply fs opts r
  simp only [Round.replier, carve] at fits
  split at length <;> omega

/-- What the loop reads back as the produced nodeid is the first word of the reply: a
successful entry is never shorter than a word. -/
theorem Round.prod_eq (errors : fs.ErrorsSatisfy (· ≠ 0)) (t : Round σ) :
    t.prod fs (dispatchLeaf opts) r = (t.reply fs opts r).nodeid t.header.opcode := by
  by_cases entry : (t.result fs (dispatchLeaf opts) r).1.negErr = 0 ∧
      producesEntry t.header.opcode
  · obtain ⟨success, produces⟩ := entry
    have leaf : t.header.opcode ≠ Opcode.compound.code := by
      intro nested
      rw [nested, producesEntry_iff] at produces
      simp at produces
    have handler : t.handler (dispatchLeaf opts) r =
        dispatchLeaf opts t.header t.frame.payload (t.replier r) := by
      rw [Round.handler, dispatchSub, if_neg leaf]
    have length : (t.result fs (dispatchLeaf opts) r).1.len = FuseEntryxOut.codec.size := by
      rw [Round.result, handler] at success ⊢
      exact dispatchLeaf_entry opts errors _ _ _ _ produces success
    have word : Codec.u64.size ≤ (t.result fs (dispatchLeaf opts) r).1.len := by
      rw [length]
      decide
    have first := Memory.read_slice ((t.result fs (dispatchLeaf opts) r).2.mem .slot)
      (t.result fs (dispatchLeaf opts) r).1.out (t.result fs (dispatchLeaf opts) r).1.len 0
      Codec.u64.size (by omega)
    have data : (t.reply fs opts r).data = ((t.result fs (dispatchLeaf opts) r).2.mem .slot).read
        (t.result fs (dispatchLeaf opts) r).1.out (t.result fs (dispatchLeaf opts) r).1.len := by
      simp only [Round.reply, Sequential.reply, success, ne_eq, not_true, if_false]
    rw [Round.prod, producedBy, if_pos ⟨success, word, produces⟩, SubReply.nodeid_eq,
      if_pos ⟨success, produces⟩, data]
    simp only [List.drop_zero] at first
    rw [← first]
    rfl
  · have nothing : ¬((t.result fs (dispatchLeaf opts) r).1.negErr = 0 ∧
        (t.result fs (dispatchLeaf opts) r).1.len ≥ Codec.u64.size ∧
          producesEntry t.header.opcode) := fun all => entry ⟨all.1, all.2.2⟩
    have error : (t.reply fs opts r).error = (t.result fs (dispatchLeaf opts) r).1.negErr := rfl
    rw [Round.prod, producedBy, if_neg nothing, SubReply.nodeid_eq, error, if_neg entry]
    rfl

/-- The sequential machine's step in terms of the round. -/
theorem step_eq_round (place : Nat) (q : SubRequest) (c : Cursor σ) (s : Sequential σ)
    (agrees : Agrees c s) :
    let t : Round σ := ⟨q.frame place, c⟩
    (s.step fs opts r place q).replies = s.replies ++ [t.reply fs opts r] ∧
      (s.step fs opts r place q).produced =
        s.produced ++ [(t.reply fs opts r).nodeid t.header.opcode] ∧
      (s.step fs opts r place q).world = (t.result fs (dispatchLeaf opts) r).2.write .slot
        (r.out + s.used) (FuseOutHeader.codec.enc (t.reply fs opts r).header) ∧
      (s.step fs opts r place q).calls =
        s.calls ++ callbacks (t.log fs (dispatchLeaf opts) r) := by
  obtain ⟨used, produced, world⟩ := agrees
  obtain ⟨_, _, _⟩ := c
  dsimp only at used produced world
  subst used produced world
  by_cases nested : (q.passed s.produced s.produced.length).opcode = Opcode.compound.code
  · simp only [Sequential.step, Round.reply, Round.result, Round.log, Round.handler, Round.header,
      Round.replier, SubRequest.frame, dispatchSub, SubRequest.threadNodeid_eq_passed,
      if_pos nested]
    refine ⟨rfl, rfl, rfl, ?_⟩
    rw [trace_pure, callbacks_nil, List.append_nil]
    rfl
  · have leaf (body : Span) (sub : Replier) := dispatch_leaf opts
      (q.passed s.produced s.produced.length) body sub nested
    simp only [Sequential.step, Round.reply, Round.result, Round.log, Round.handler, Round.header,
      Round.replier, SubRequest.frame, dispatchSub, SubRequest.threadNodeid_eq_passed,
      if_neg nested, leaf]
    exact ⟨rfl, rfl, rfl, rfl⟩

/-- A round keeps the agreement. -/
theorem round_agrees (errors : fs.ErrorsSatisfy (· ≠ 0)) (bounded : r.cap < 2 ^ 32) (place : Nat)
    (q : SubRequest) (c : Cursor σ) (s : Sequential σ) (agrees : Agrees c s)
    (room : c.outP + FuseOutHeader.codec.size ≤ r.cap) :
    Agrees (Round.next fs (dispatchLeaf opts) r ⟨q.frame place, c⟩)
      (s.step fs opts r place q) := by
  obtain ⟨replies, produced, world, -⟩ := step_eq_round fs opts r place q c s agrees
  have fits := Round.reply_fits fs opts r errors ⟨q.frame place, c⟩ room
  have sized : (Round.reply fs opts r ⟨q.frame place, c⟩).Sized := by
    unfold SubReply.Sized
    omega
  refine ⟨?_, ?_, ?_⟩
  · rw [Sequential.used, replies, List.flatMap_append, List.length_append]
    simp only [Round.next, Round.outHeader_eq, SubReply.header_len sized, agrees.used,
      Sequential.used, List.flatMap_cons, List.flatMap_nil, List.append_nil,
      SubReply.length_encode]
    omega
  · rw [produced]
    simp only [Round.next, Round.prod_eq fs opts r errors, agrees.produced]
  · rw [world]
    simp only [Round.next, Round.outHeader_eq, agrees.used]

/-- The loop over the laid-out frames and the sequential run stay together. -/
theorem exec_agrees (errors : fs.ErrorsSatisfy (· ≠ 0)) (bounded : r.cap < 2 ^ 32)
    (subs : List SubRequest) (place : Nat) (c : Cursor σ) (s : Sequential σ) (agrees : Agrees c s)
    (fits : Sequential.Fits fs opts r place subs s) :
    let progress := runFrames fs (dispatchLeaf opts) r (placeFrames place subs) c
    progress.finished = true ∧ Agrees progress.last (Sequential.exec fs opts r place subs s) ∧
      (Sequential.exec fs opts r place subs s).calls = s.calls ++
        progress.rounds.flatMap fun t => callbacks (t.log fs (dispatchLeaf opts) r) := by
  induction subs generalizing place c s with
  | nil => exact ⟨rfl, agrees, (List.append_nil _).symm⟩
  | cons q rest ih =>
    obtain ⟨room, later⟩ := fits
    rw [← agrees.used] at room
    have next := round_agrees fs opts r errors bounded place q c s agrees room
    obtain ⟨-, -, -, calls⟩ := step_eq_round fs opts r place q c s agrees
    obtain ⟨finished, last, rounds⟩ := ih _ _ _ next later
    have started : ¬c.outP + FuseOutHeader.codec.size > r.cap := Nat.not_lt.mpr room
    simp only [placeFrames, runFrames, if_neg started, Sequential.exec]
    refine ⟨finished, last, ?_⟩
    rw [rounds, calls, List.flatMap_cons, List.append_assoc]

/-! ### The reply area -/

/-- The reply area holds the zeroed `fuse_compound_out` and the replies so far. -/
def Sequential.Laid (s : Sequential σ) : Prop :=
  (s.world.mem .slot).read r.out s.used =
    FuseCompoundOut.codec.enc {} ++ s.replies.flatMap SubReply.encode

theorem step_laid (errors : fs.ErrorsSatisfy (· ≠ 0)) (place : Nat) (q : SubRequest)
    (s : Sequential σ) (laid : s.Laid r) : (s.step fs opts r place q).Laid r := by
  have agrees : Agrees ⟨s.used, s.produced, s.world⟩ s := ⟨rfl, rfl, rfl⟩
  obtain ⟨replies, -, world, -⟩ := step_eq_round fs opts r place q _ s agrees
  -- `t` is the round of this step, `p` its reply.
  generalize is : (⟨q.frame place, ⟨s.used, s.produced, s.world⟩⟩ : Round σ) = t at *
  have start : t.start.world = s.world ∧ t.start.outP = s.used := by
    rw [← is]
    exact ⟨rfl, rfl⟩
  obtain ⟨answered, touches⟩ := t.result_tame r (dispatchLeaf_tame opts errors)
  have area : (t.replier r).out = r.out + s.used + FuseOutHeader.codec.size := by
    rw [Round.replier, carve, start.2]
  have length : (s.step fs opts r place q).used = s.used + (FuseOutHeader.codec.size +
      (t.reply fs opts r).data.length) := by
    rw [Sequential.used, replies]
    simp [Sequential.used, Nat.add_assoc]
  have before : ((s.step fs opts r place q).world.mem .slot).read r.out s.used =
      (s.world.mem .slot).read r.out s.used := by
    rw [world, World.write_mem_same, Memory.read_write_disjoint _ _ _ _ _ (.inl (Nat.le_refl _)),
      ← start.1]
    refine Memory.read_congr fun a _ upper => touches.outside a (.inl ?_)
    simp only [Replier.span, area]
    omega
  have header : ((s.step fs opts r place q).world.mem .slot).read (r.out + s.used)
      FuseOutHeader.codec.size = FuseOutHeader.codec.enc (t.reply fs opts r).header := by
    have same := Memory.read_write_same ((t.result fs (dispatchLeaf opts) r).2.mem .slot)
      (r.out + s.used) (FuseOutHeader.codec.enc (t.reply fs opts r).header)
    rwa [Codec.length_enc, ← World.write_mem_same, ← world] at same
  have data : ((s.step fs opts r place q).world.mem .slot).read
      (r.out + s.used + FuseOutHeader.codec.size) (t.reply fs opts r).data.length =
        (t.reply fs opts r).data := by
    rw [world, World.write_mem_same, Memory.read_write_disjoint _ _ _ _ _ (.inr (by simp)), ← area,
      ← answered.out, Round.length_reply]
    simp only [Round.reply, Sequential.reply]
    split <;> rfl
  unfold Sequential.Laid at *
  rw [length, Memory.read_add, Memory.read_add, before, laid, header, data, replies]
  simp [SubReply.encode]

theorem exec_laid (errors : fs.ErrorsSatisfy (· ≠ 0)) (subs : List SubRequest) (place : Nat)
    (s : Sequential σ) (laid : s.Laid r) : (Sequential.exec fs opts r place subs s).Laid r := by
  induction subs generalizing place s with
  | nil => exact laid
  | cons q rest ih => exact ih _ _ (step_laid fs opts r errors place q s laid)

theorem start_laid (w : World σ) : (Sequential.start r w).Laid r := by
  have zeroed := Memory.read_write_same (w.mem .slot) r.out (FuseCompoundOut.codec.enc {})
  rw [Codec.length_enc] at zeroed
  simpa [Sequential.Laid, Sequential.start, Sequential.used] using zeroed

/-- No reply is longer than the reply area. -/
theorem exec_sized (errors : fs.ErrorsSatisfy (· ≠ 0)) (bounded : r.cap < 2 ^ 32)
    (subs : List SubRequest) (place : Nat) (c : Cursor σ) (s : Sequential σ) (agrees : Agrees c s)
    (fits : Sequential.Fits fs opts r place subs s) (inside : c.outP ≤ r.cap) :
    ∀ p ∈ (Sequential.exec fs opts r place subs s).replies, p.Sized := by
  have tame := dispatchLeaf_tame opts errors
  obtain ⟨-, last, -⟩ := exec_agrees fs opts r errors bounded subs place c s agrees fits
  have ends := (runFrames_invariant (·.outP ≤ r.cap) (fun t room _ => t.next_outP_le r tame room)
    (placeFrames place subs) c inside).2
  rw [last.used, Sequential.used] at ends
  intro p member
  -- An encoded reply is a part of the concatenation, which ends inside the area.
  obtain ⟨before, after, split⟩ := List.append_of_mem member
  rw [split, List.flatMap_append, List.flatMap_cons] at ends
  simp only [List.length_append, SubReply.length_encode] at ends
  unfold SubReply.Sized
  omega

/-- The sub-requests of a body, laid out behind its `fuse_compound_in`. -/
structure LaidOut (m : Memory) (body : Span) (subs : List SubRequest) : Prop where
  size : body.len = FuseCompoundIn.codec.size + (subs.flatMap SubRequest.encode).length
  payloads : m.read (body.base + FuseCompoundIn.codec.size)
    (subs.flatMap SubRequest.encode).length = subs.flatMap SubRequest.encode

theorem laidOut_of_read {m : Memory} {body : Span} {subs : List SubRequest}
    (head : Blob FuseCompoundIn.codec.size)
    (laid : m.read body.base body.len = head.1 ++ subs.flatMap SubRequest.encode) :
    LaidOut m body subs := by
  have size : body.len = FuseCompoundIn.codec.size + (subs.flatMap SubRequest.encode).length := by
    have length := congrArg List.length laid
    simpa [head.2] using length
  refine ⟨size, ?_⟩
  rw [size, Memory.read_add] at laid
  exact (List.append_inj laid (by simp [head.2])).2

/-- The sequential run of a compound. -/
def sequentialRun (body : Span) (subs : List SubRequest) (w : World σ) : Sequential σ :=
  Sequential.exec fs opts r (body.base + FuseCompoundIn.codec.size) subs (Sequential.start r w)

theorem start_agrees (w : World σ) : Agrees (compoundStart r w) (Sequential.start r w) := by
  refine ⟨?_, rfl, rfl⟩
  simp [compoundStart, Sequential.used, Sequential.start]

/-- The handler ends as the sequential run does, having made the same callbacks. -/
theorem handleCompound_agrees (errors : fs.ErrorsSatisfy (· ≠ 0)) (bounded : r.cap < 2 ^ 32)
    (least : FuseCompoundOut.codec.size ≤ r.cap) (h : FuseInHeader) (body : Span)
    (subs : List SubRequest) (w : World σ) (laid : LaidOut (w.mem .scratch) body subs)
    (fits : Sequential.Fits fs opts r (body.base + FuseCompoundIn.codec.size) subs
      (Sequential.start r w)) :
    let seq := sequentialRun fs opts r body subs w
    run (World.step fs) (handleCompound (dispatch opts) h body r) w =
        ({ r with negErr := 0, len := seq.used }, seq.world) ∧
      callbacks (trace (World.step fs) (handleCompound (dispatch opts) h body r) w) =
        seq.calls := by
  obtain ⟨finished, last, calls⟩ :=
    exec_agrees fs opts r errors bounded subs _ _ _ (start_agrees r w) fits
  have size := laid.size
  have scanned : compoundFrames (w.mem .scratch) body =
      (placeFrames (body.base + FuseCompoundIn.codec.size) subs, true) :=
    scanFrames_encode _ _ subs _ _ laid.payloads size (by omega)
  have spec := handleCompound_spec (dispatchLeaf_tame opts errors) h body r w (by omega)
  rw [← handleCompound_dispatch, compoundProgress, scanned] at spec
  refine ⟨?_, ?_⟩
  · rw [spec.result, verdict, if_pos ⟨rfl, finished⟩, last.used, last.world]
    rfl
  · rw [spec.calls]
    exact calls.symm

end Agreement

/-- `handle_compound` on a header and encoded sub-requests is sequential dispatch: the
same calls of `dispatch` and callbacks in the same order, and a reply from which the
sub-replies are found again by walking their lengths. -/
theorem handleCompound_refines_sequential {σ : Type} (opts : SessionOptions) (fs : Filesystem σ)
    (errors : fs.ErrorsSatisfy (· ≠ 0)) (h : FuseInHeader) (head : Blob FuseCompoundIn.codec.size)
    (subs : List SubRequest) (body : Span) (r : Replier) (w : World σ)
    (laid : (w.mem .scratch).read body.base body.len =
      head.1 ++ subs.flatMap SubRequest.encode)
    (least : FuseCompoundOut.codec.size ≤ r.cap) (bounded : r.cap < 2 ^ 32)
    (fits : Sequential.Fits fs opts r (body.base + FuseCompoundIn.codec.size) subs
      (Sequential.start r w)) :
    let seq := sequentialRun fs opts r body subs w
    let out := run (World.step fs) (handleCompound (dispatch opts) h body r) w
    -- one reply for each sub-request, a refusal for a nested compound
    List.Forall₂ Sequential.Replies subs seq.replies ∧
    -- `dispatch` is called once for each of the others, with its payload and threaded header
    seq.dispatched = (subs.zipIdx.filterMap fun e =>
      Sequential.dispatchOf seq.produced e.2 e.1) ∧
    seq.produced = List.zipWith (fun q p => p.nodeid q.header.opcode) subs seq.replies ∧
    -- the handler has made just these calls
    callbacks (trace (World.step fs) (handleCompound (dispatch opts) h body r) w) = seq.calls ∧
    out.2 = seq.world ∧
    -- and its reply is the concatenation, which the kernel can walk
    out.1 = { r with negErr := 0, len := FuseCompoundOut.codec.size +
      (seq.replies.flatMap SubReply.encode).length } ∧
    (out.2.mem .slot).read r.out out.1.len =
      List.replicate FuseCompoundOut.codec.size 0 ++ seq.replies.flatMap SubReply.encode ∧
    walkReplies seq.replies.length (((out.2.mem .slot).read r.out out.1.len).drop
      FuseCompoundOut.codec.size) = some seq.replies := by
  have placed := laidOut_of_read head laid
  obtain ⟨news, replies, all, produced, dispatched⟩ := Sequential.exec_spec fs opts r subs
    (body.base + FuseCompoundIn.codec.size) (Sequential.start r w) placed.payloads
  have sized := exec_sized fs opts r errors bounded subs _ _ _ (start_agrees r w) fits least
  have area := exec_laid fs opts r errors subs (body.base + FuseCompoundIn.codec.size) _
    (start_laid r w)
  obtain ⟨result, calls⟩ :=
    handleCompound_agrees fs opts r errors bounded least h body subs w placed fits
  intro seq out
  have same : out = ({ r with negErr := 0, len := seq.used }, seq.world) := result
  obtain rfl : seq.replies = news := all
  have reply : (out.2.mem .slot).read r.out out.1.len =
      List.replicate FuseCompoundOut.codec.size 0 ++ seq.replies.flatMap SubReply.encode := by
    rw [same]
    exact area
  refine ⟨replies, dispatched, produced, calls, congrArg Prod.snd same, congrArg Prod.fst same,
    reply, ?_⟩
  rw [reply, List.drop_left' (List.length_replicate)]
  exact walkReplies_encode _ sized _ (Nat.le_refl _)

/-- The body of a compound of both. -/
def lookupThenStat : Bytes :=
  (Blob.zero FuseCompoundIn.codec.size).1 ++ [lookupOfA, statOfProduced].flatMap SubRequest.encode

/-- The lookup leads to node 9, which is then asked for its attributes. -/
theorem handleCompound_refines_sequential_dependent :
    let fs := Filesystem.leading 9
    let body : Span := ⟨0, lookupThenStat.length⟩
    let w : World Unit := ⟨fun _ => Memory.write (fun _ => 0) 0 lookupThenStat, true, ()⟩
    let r : Replier := { cap := 4096 }
    let seq := sequentialRun fs {} r body [lookupOfA, statOfProduced] w
    let out := run (World.step fs) (handleCompound (dispatch {}) {} body r) w
    seq.dispatched = [(lookupOfA.header, [97, 0]),
      ({ statOfProduced.header with nodeid := 9 }, statOfProduced.payload)] ∧
    callbacks (trace (World.step fs) (handleCompound (dispatch {}) {} body r) w) = seq.calls ∧
    seq.replies.map (fun p => (p.error, p.unique, p.data.length)) =
      [(0, 7, FuseEntryxOut.codec.size), (0, 8, FuseStatxOut.codec.size)] ∧
    walkReplies seq.replies.length (((out.2.mem .slot).read r.out out.1.len).drop
      FuseCompoundOut.codec.size) = some seq.replies := by
  intro fs body w r
  have laid : (w.mem .scratch).read body.base body.len =
      (Blob.zero FuseCompoundIn.codec.size).1 ++
        [lookupOfA, statOfProduced].flatMap SubRequest.encode := by decide +kernel
  have fits : Sequential.Fits fs {} r (body.base + FuseCompoundIn.codec.size)
      [lookupOfA, statOfProduced] (Sequential.start r w) :=
    ⟨by decide +kernel, by decide +kernel, trivial⟩
  have produced : (sequentialRun fs {} r body [lookupOfA, statOfProduced] w).produced = [9, 0] := by
    decide +kernel
  obtain ⟨-, dispatched, -, calls, -, -, -, walks⟩ := handleCompound_refines_sequential {} fs
    (Filesystem.leading_errorsSatisfy 9 (by decide)) {} (Blob.zero FuseCompoundIn.codec.size)
    [lookupOfA, statOfProduced] body r w laid (by decide) (by decide) fits
  refine ⟨?_, calls, by decide +kernel, walks⟩
  rw [dispatched, produced]
  rfl

end Fex
