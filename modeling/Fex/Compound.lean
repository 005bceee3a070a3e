import Fex.Serving

/-!
# COMPOUND as a sequence of rounds

The body of a compound is scanned into frames; each frame that finds room for its
out-header is one `Round`: dispatched with the nodeid its producer left, packed
behind its header. `compoundLoop_spec` and `handleCompound_spec` show that the
byte-cursor loop is this recursion over the scanned frames, so every property of the
loop is an induction over a list; `handleCompound_comprises` says whose operations the
log of the handler consists of.
-/
namespace Fex

open Foundation Program

/-- A sub-request as the loop finds it: its dependency, its raw header, its payload. -/
structure Frame where
  req : FuseCompoundReqIn
  header : FuseInHeader
  payload : Span

/-- The size of `[fuse_compound_req_in][fuse_in_header]`. -/
def frameHdrs : Nat := FuseCompoundReqIn.codec.size + FuseInHeader.codec.size

/-- The frame at offset `p`, if its headers and its announced length fit the body. -/
def frameAt (m : Memory) (body : Span) (p : Nat) : Option Frame :=
  let req := FuseCompoundReqIn.codec.dec (m.read (body.base + p) FuseCompoundReqIn.codec.size)
  let header := FuseInHeader.codec.dec
    (m.read (body.base + (p + FuseCompoundReqIn.codec.size)) FuseInHeader.codec.size)
  if body.len - p < frameHdrs ∨ header.len.toNat < FuseInHeader.codec.size ∨
      body.len - (p + frameHdrs) < header.len.toNat - FuseInHeader.codec.size then none
  else some ⟨req, header,
    ⟨body.base + (p + frameHdrs), header.len.toNat - FuseInHeader.codec.size⟩⟩

/-- The frames from offset `p` on, and whether they end with the body. -/
def scanFrames (m : Memory) (body : Span) : (fuel p : Nat) → List Frame × Bool
  | 0, _ => ([], true)
  | fuel + 1, p =>
    if p < body.len then
      match frameAt m body p with
      | none => ([], false)
      | some f =>
        let rest := scanFrames m body fuel (p + frameHdrs + f.payload.len)
        (f :: rest.1, rest.2)
    else ([], true)

/-- What the loop carries from round to round. -/
structure Cursor (σ : Type) where
  outP : Nat
  produced : List UInt64
  world : World σ

/-- A frame that found room, with the cursor it started from. -/
structure Round (σ : Type) where
  frame : Frame
  start : Cursor σ

namespace Round

variable {σ : Type} (fs : Filesystem σ) (dispatch : Dispatcher) (r : Replier) (t : Round σ)

/-- The header passed to `dispatch`. -/
def header : FuseInHeader := threadNodeid t.start.produced t.frame.req t.frame.header

def replier : Replier := carve r t.start.outP t.header.unique

/-- The sub-request's handler. -/
def handler : Handler Replier := dispatchSub dispatch t.header t.frame.payload (t.replier r)

/-- The filled sub-`Replier` and the world it was left in. -/
def result : Replier × World σ := run (World.step fs) (t.handler dispatch r) t.start.world

/-- The operations of the sub-request. -/
def log : List Event := trace (World.step fs) (t.handler dispatch r) t.start.world

/-- The entry of `produced` this round adds. -/
def prod : UInt64 :=
  (run (World.step fs) (producedBy t.header (t.result fs dispatch r).1)
    (t.result fs dispatch r).2).1

def outHeader : FuseOutHeader := subOutHeader t.header (t.result fs dispatch r).1

/-- The cursor after the round. -/
def next : Cursor σ where
  outP := t.start.outP + (t.outHeader fs dispatch r).len.toNat
  produced := t.start.produced ++ [t.prod fs dispatch r]
  world := (t.result fs dispatch r).2.write .slot (r.out + t.start.outP)
    (FuseOutHeader.codec.enc (t.outHeader fs dispatch r))

/-- The 32 bits of the out-header's length may only cut a sub-reply short. -/
theorem outHeader_len_le : (t.outHeader fs dispatch r).len.toNat ≤
    FuseOutHeader.codec.size + (t.result fs dispatch r).1.len := by
  simp only [outHeader, subOutHeader, UInt32.toNat_ofNat']
  refine Nat.le_trans (Nat.mod_le _ _) ?_
  split <;> omega

end Round

/-- A slot access through a span inside `area`, within the bounds of that span. -/
def Op.SlotWithin (area : Span) : Op → Prop
  | .load blk span off len => blk = .slot ∧ span.Within area ∧ off + len ≤ span.len
  | .store blk span off bytes => blk = .slot ∧ span.Within area ∧ off + bytes.length ≤ span.len
  | .call _ | .setInitDone => False

/-- The rounds of a list of frames, the cursor behind them, and whether all had room. -/
structure Progress (σ : Type) where
  rounds : List (Round σ)
  last : Cursor σ
  finished : Bool

section Rounds

variable {σ : Type} (fs : Filesystem σ) (dispatch : Dispatcher) (r : Replier)

def runFrames : List Frame → Cursor σ → Progress σ
  | [], c => ⟨[], c, true⟩
  | f :: rest, c =>
    if c.outP + FuseOutHeader.codec.size > r.cap then ⟨[], c, false⟩
    else
      let later := runFrames rest (Round.next fs dispatch r ⟨f, c⟩)
      { later with rounds := ⟨f, c⟩ :: later.rounds }

/-- A frame that has room makes the next round. -/
theorem runFrames_rounds_cons {f : Frame} {rest : List Frame} {c : Cursor σ}
    (room : ¬c.outP + FuseOutHeader.codec.size > r.cap) :
    (runFrames fs dispatch r (f :: rest) c).rounds =
      ⟨f, c⟩ :: (runFrames fs dispatch r rest (Round.next fs dispatch r ⟨f, c⟩)).rounds := by
  rw [runFrames, if_neg room]

/-- How the loop ends: EINVAL unless the frames were clean and all had room. -/
def verdict (clean : Bool) (progress : Progress σ) : Replier :=
  if clean ∧ progress.finished then { r with negErr := 0, len := progress.last.outP }
  else replyError r Errc.invalidArgument

/-! ### The loop is the recursion over frames -/

@[simp] theorem run_producedBy_world (h : FuseInHeader) (subR : Replier) (w : World σ) :
    (run (World.step fs) (producedBy h subR) w).2 = w := by
  unfold producedBy
  split <;> rfl

/-- The contract the loop needs of the dispatcher: it answers the `Replier` it is given
and changes nothing but that `Replier`'s area. -/
def Tame (allowed : Errc → Prop) : Prop :=
  ∀ h body sub w, Answered allowed sub (run (World.step fs) (dispatch h body sub) w).1 ∧
    w.Touches sub.span (run (World.step fs) (dispatch h body sub) w).2

variable {fs dispatch} {allowed : Errc → Prop} (tame : Tame fs dispatch allowed)

include tame

theorem Round.result_tame (t : Round σ) :
    Answered allowed (t.replier r) (t.result fs dispatch r).1 ∧
      t.start.world.Touches (t.replier r).span (t.result fs dispatch r).2 := by
  simp only [Round.result, Round.handler, dispatchSub]
  split
  · exact ⟨answered_error _ (.inr (by simp [ownErrors])), .refl _ _⟩
  · exact tame ..

theorem Round.next_scratch (t : Round σ) :
    (t.next fs dispatch r).world.mem .scratch = t.start.world.mem .scratch := by
  simp only [Round.next, World.write_mem_scratch]
  exact (t.result_tame r tame).2.scratch

/-- The sub-reply, out-header included, ends inside the reply area. -/
theorem Round.next_outP_le (t : Round σ)
    (room : t.start.outP + FuseOutHeader.codec.size ≤ r.cap) :
    (t.next fs dispatch r).outP ≤ r.cap := by
  have fits := (t.result_tame r tame).1.fits
  have shorter := t.outHeader_len_le fs dispatch r
  simp only [Round.replier, carve] at fits
  simp only [Round.next]
  omega

omit tame

variable (fs dispatch)

section Loop

variable {body : Span} {p : Nat} {c : Cursor σ} (fuel : Nat)

private theorem frameAt_some {m : Memory} {f : Frame} (found : frameAt m body p = some f) :
    ¬body.len - p < frameHdrs ∧
      f.req = FuseCompoundReqIn.codec.dec
        (m.read (body.base + p) FuseCompoundReqIn.codec.size) ∧
      f.header = FuseInHeader.codec.dec
        (m.read (body.base + (p + FuseCompoundReqIn.codec.size)) FuseInHeader.codec.size) ∧
      ¬f.header.len.toNat < FuseInHeader.codec.size ∧
      ¬body.len - (p + frameHdrs) < f.header.len.toNat - FuseInHeader.codec.size ∧
      f.payload = ⟨body.base + (p + frameHdrs), f.header.len.toNat - FuseInHeader.codec.size⟩ := by
  unfold frameAt at found
  dsimp only at found
  split at found
  · cases found
  next ok =>
    cases found
    simp only [not_or] at ok
    exact ⟨ok.1, rfl, rfl, ok.2.1, ok.2.2, rfl⟩

/-- A round of the loop: two header loads, the sub-request, the produced nodeid, the
out-header. -/
theorem compoundLoop_step {f : Frame} (more : p < body.len)
    (found : frameAt (c.world.mem .scratch) body p = some f)
    (room : ¬c.outP + FuseOutHeader.codec.size > r.cap) :
    let t : Round σ := ⟨f, c⟩
    let next := t.next fs dispatch r
    let rest := compoundLoop dispatch body r fuel (p + frameHdrs + f.payload.len) next.outP
      next.produced
    run (World.step fs) (compoundLoop dispatch body r (fuel + 1) p c.outP c.produced) c.world =
        run (World.step fs) rest next.world ∧
      trace (World.step fs) (compoundLoop dispatch body r (fuel + 1) p c.outP c.produced) c.world =
        trace (World.step fs) (load .scratch body p FuseCompoundReqIn.codec.size) c.world ++
        (trace (World.step fs) (load .scratch body (p + FuseCompoundReqIn.codec.size)
          FuseInHeader.codec.size) c.world ++
        (t.log fs dispatch r ++
        (trace (World.step fs) (producedBy t.header (t.result fs dispatch r).1)
          (t.result fs dispatch r).2 ++
        (trace (World.step fs) (store .slot r.span c.outP
          (FuseOutHeader.codec.enc (t.outHeader fs dispatch r))) (t.result fs dispatch r).2 ++
        trace (World.step fs) rest next.world)))) := by
  -- That there is a frame means that both checks of the loop pass.
  obtain ⟨headers, req, header, long, fits, payload⟩ := frameAt_some found
  have ok : ¬(body.len - p < FuseCompoundReqIn.codec.size + FuseInHeader.codec.size ∨
      c.outP + FuseOutHeader.codec.size > r.cap) := by
    rintro (short | full)
    · exact headers short
    · exact room full
  rw [header] at long fits
  have inside : ¬((FuseInHeader.codec.dec ((c.world.mem .scratch).read
        (body.base + (p + FuseCompoundReqIn.codec.size)) FuseInHeader.codec.size)).len.toNat <
        FuseInHeader.codec.size ∨
      body.len - (p + (FuseCompoundReqIn.codec.size + FuseInHeader.codec.size)) <
        (FuseInHeader.codec.dec ((c.world.mem .scratch).read
        (body.base + (p + FuseCompoundReqIn.codec.size)) FuseInHeader.codec.size)).len.toNat -
          FuseInHeader.codec.size) := by
    rintro (short | full)
    · exact long short
    · exact fits full
  -- The loop decodes the headers again; with the frame spelled out both sides agree.
  obtain ⟨_, _, _⟩ := f
  dsimp only at req header payload
  subst req header payload
  simp only [compoundLoop, if_pos more, if_neg ok]
  rw [run_bind, run_bind, trace_bind, trace_bind]
  split
  next bad => exact absurd bad inside
  · rw [run_bind, run_bind, run_bind, trace_bind, trace_bind, trace_bind]
    simp only [run_producedBy_world, run_load, run_store, Round.next, Round.prod, Round.outHeader,
      Round.result, Round.log, Round.handler, Round.header, Round.replier, frameHdrs,
      Replier.span, and_self]

/-- The loop gives up: malformed headers, an announced length beyond the body, or no
room for another out-header. Nothing but headers has been read. -/
theorem compoundLoop_stop (more : p < body.len)
    (stuck : frameAt (c.world.mem .scratch) body p = none ∨
      c.outP + FuseOutHeader.codec.size > r.cap) :
    run (World.step fs) (compoundLoop dispatch body r (fuel + 1) p c.outP c.produced) c.world =
        (replyError r Errc.invalidArgument, c.world) ∧
      ∀ e ∈ trace (World.step fs) (compoundLoop dispatch body r (fuel + 1) p c.outP c.produced)
        c.world, ReadsBody body body.len e.1 := by
  by_cases early : body.len - p < FuseCompoundReqIn.codec.size + FuseInHeader.codec.size ∨
      c.outP + FuseOutHeader.codec.size > r.cap
  · -- Nothing has been read yet.
    simp only [compoundLoop, if_pos more, if_pos early]
    exact ⟨rfl, fun e member => absurd member List.not_mem_nil⟩
  · simp only [compoundLoop, if_pos more, if_neg early]
    simp only [not_or] at early
    rw [run_bind, run_bind, trace_bind, trace_bind]
    split
    · -- The announced length is wrong: only the two headers have been read.
      refine ⟨rfl, ?_⟩
      intro e member
      rcases List.mem_cons.mp member with rfl | member
      · exact ⟨_, _, rfl, by omega⟩
      · rcases List.mem_cons.mp member with rfl | member
        · exact ⟨_, _, rfl, by omega⟩
        · cases member
    next fine =>
      -- Headers and length are in order, so there was a frame and it had room.
      rcases stuck with none | full
      · unfold frameAt at none
        dsimp only at none
        split at none
        next bad =>
          rcases bad with short | bad
          · exact absurd short early.1
          · exact absurd bad fine
        · cases none
      · exact absurd full early.2

end Loop

/-- What a run of the loop amounts to in terms of its rounds. -/
structure LoopSpec (body : Span) (loop : Handler Replier) (w : World σ) (clean : Bool)
    (progress : Progress σ) : Prop where
  result : run (World.step fs) loop w = (verdict r clean progress, progress.last.world)
  calls : callbacks (trace (World.step fs) loop w) =
    progress.rounds.flatMap fun t => callbacks (t.log fs dispatch r)
  covers : ∀ t ∈ progress.rounds, ∀ e ∈ t.log fs dispatch r, e ∈ trace (World.step fs) loop w
  events : ∀ e ∈ trace (World.step fs) loop w,
    (∃ t ∈ progress.rounds, e ∈ t.log fs dispatch r) ∨ ReadsBody body body.len e.1 ∨
      e.1.SlotWithin r.span

theorem callbacks_producedBy (h : FuseInHeader) (subR : Replier) (w : World σ) :
    callbacks (trace (World.step fs) (producedBy h subR) w) = [] := by
  unfold producedBy
  split <;> rfl

/-- Reading the produced nodeid back stays inside the sub-reply. -/
theorem producedBy_slot (h : FuseInHeader) (subR : Replier) (w : World σ) (area : Span)
    (inside : subR.span.Within area) (fits : subR.len ≤ subR.cap) :
    ∀ e ∈ trace (World.step fs) (producedBy h subR) w, e.1.SlotWithin area := by
  unfold producedBy
  split
  next has =>
    intro e member
    rw [List.mem_singleton.mp member]
    refine ⟨rfl, inside, ?_⟩
    have enough := has.2.1
    simp only [Replier.span]
    omega
  · intro e member
    cases member

/-- A loop that stopped before its first round. -/
theorem LoopSpec.stopped {body : Span} {loop : Handler Replier} {c : Cursor σ} {clean : Bool}
    {finished : Bool} (unclean : ¬(clean ∧ finished))
    (result : run (World.step fs) loop c.world = (replyError r Errc.invalidArgument, c.world))
    (reads : ∀ e ∈ trace (World.step fs) loop c.world, ReadsBody body body.len e.1) :
    LoopSpec fs dispatch r body loop c.world clean ⟨[], c, finished⟩ where
  result := by
    rw [result, verdict, if_neg unclean]
  calls := by
    apply callbacks_eq_nil
    intro e member cb is
    obtain ⟨off, len, load, _⟩ := reads e member
    rw [is] at load
    cases load
  covers t member := absurd member List.not_mem_nil
  events e member := .inr (.inl (reads e member))

/-- A loop that reached the end of the body. -/
theorem LoopSpec.ended {body : Span} (c : Cursor σ) :
    LoopSpec fs dispatch r body (pure { r with negErr := 0, len := c.outP }) c.world true
      ⟨[], c, true⟩ :=
  ⟨rfl, rfl, fun _ member => absurd member List.not_mem_nil,
    fun _ member => absurd member List.not_mem_nil⟩

/-- A loop that makes a round and goes on as `rest` does. -/
theorem LoopSpec.round (tame : Tame fs dispatch allowed) {body : Span} {fuel p : Nat}
    {c : Cursor σ} {f : Frame} {clean : Bool} {progress : Progress σ} (more : p < body.len)
    (found : frameAt (c.world.mem .scratch) body p = some f)
    (room : ¬c.outP + FuseOutHeader.codec.size > r.cap)
    (later : LoopSpec fs dispatch r body
      (compoundLoop dispatch body r fuel (p + frameHdrs + f.payload.len)
        (Round.next fs dispatch r ⟨f, c⟩).outP (Round.next fs dispatch r ⟨f, c⟩).produced)
      (Round.next fs dispatch r ⟨f, c⟩).world clean progress) :
    LoopSpec fs dispatch r body (compoundLoop dispatch body r (fuel + 1) p c.outP c.produced)
      c.world clean { progress with rounds := ⟨f, c⟩ :: progress.rounds } := by
  obtain ⟨result, log⟩ := compoundLoop_step fs dispatch r fuel more found room
  refine ⟨?_, ?_, ?_, ?_⟩
  · rw [result, later.result]
    rfl
  · rw [log]
    simp only [callbacks_append, callbacks_load, callbacks_store, callbacks_producedBy,
      List.nil_append, List.flatMap_cons, later.calls]
  · intro t member e logged
    rw [log]
    simp only [List.mem_append]
    rcases List.mem_cons.mp member with rfl | member
    · exact .inr (.inr (.inl logged))
    · exact .inr (.inr (.inr (.inr (.inr (later.covers t member e logged)))))
  · intro e member
    rw [log] at member
    simp only [List.mem_append] at member
    obtain ⟨headers, -⟩ := frameAt_some found
    unfold frameHdrs at headers
    have answered := (Round.result_tame r tame ⟨f, c⟩).1
    have sub_fits : (Round.result fs dispatch r ⟨f, c⟩).1.len ≤
        (Round.result fs dispatch r ⟨f, c⟩).1.cap := answered.cap ▸ answered.fits
    -- The sub-reply is carved out of the reply area.
    have inside : (Round.result fs dispatch r ⟨f, c⟩).1.span.Within r.span := by
      rw [Replier.span, answered.out, answered.cap]
      simp only [Span.Within, Replier.span, Round.replier, carve]
      omega
    -- The parts of a round in the order of the log.
    rcases member with req | header | sub | prod | out | member
    · rw [List.mem_singleton.mp req]
      exact .inr (.inl ⟨_, _, rfl, by omega⟩)
    · rw [List.mem_singleton.mp header]
      exact .inr (.inl ⟨_, _, rfl, by omega⟩)
    · exact .inl ⟨_, List.mem_cons_self, sub⟩
    · exact .inr (.inr (producedBy_slot fs _ _ _ r.span inside sub_fits e prod))
    · rw [List.mem_singleton.mp out]
      refine .inr (.inr ⟨rfl, .refl _, ?_⟩)
      simp only [Codec.length_enc, Replier.span]
      omega
    · rcases later.events e member with ⟨t, among, logged⟩ | other
      · exact .inl ⟨t, List.mem_cons_of_mem _ among, logged⟩
      · exact .inr other

/-- The byte-cursor loop runs the scanned frames. -/
theorem compoundLoop_spec (tame : Tame fs dispatch allowed) (body : Span) (fuel p : Nat)
    (c : Cursor σ) :
    let scan := scanFrames (c.world.mem .scratch) body fuel p
    LoopSpec fs dispatch r body (compoundLoop dispatch body r fuel p c.outP c.produced) c.world
      scan.2 (runFrames fs dispatch r scan.1 c) := by
  induction fuel generalizing p c with
  -- Without fuel the loop ends as if the body had; `compoundLoop_fuel` rules it out.
  | zero => exact .ended fs dispatch r c
  | succ fuel ih =>
    by_cases more : p < body.len
    · cases found : frameAt (c.world.mem .scratch) body p with
      | none =>
        obtain ⟨result, reads⟩ := compoundLoop_stop fs dispatch r fuel more (.inl found)
        simp only [scanFrames, if_pos more, found, runFrames]
        exact .stopped fs dispatch r (by simp) result reads
      | some f =>
        simp only [scanFrames, if_pos more, found, runFrames]
        by_cases full : c.outP + FuseOutHeader.codec.size > r.cap
        · -- The frame is well formed, but its out-header does not fit any more.
          obtain ⟨result, reads⟩ := compoundLoop_stop fs dispatch r fuel more (.inr full)
          rw [if_pos full]
          exact .stopped fs dispatch r (by simp) result reads
        · rw [if_neg full]
          -- The later rounds scan the same body: this round has not changed it.
          have later := ih (p + frameHdrs + f.payload.len) (Round.next fs dispatch r ⟨f, c⟩)
          rw [Round.next_scratch r tame ⟨f, c⟩] at later
          exact .round fs dispatch r tame more found full later
    · simp only [scanFrames, if_neg more, runFrames, compoundLoop]
      exact .ended fs dispatch r c

/-! ### Rules for rounds -/

variable {fs dispatch r}

/-- What every round keeps holds at the start of each round and at the end. -/
theorem runFrames_invariant (inv : Cursor σ → Prop)
    (step : ∀ t : Round σ, t.start.outP + FuseOutHeader.codec.size ≤ r.cap → inv t.start →
      inv (t.next fs dispatch r))
    (frames : List Frame) (c : Cursor σ) (initial : inv c) :
    (∀ t ∈ (runFrames fs dispatch r frames c).rounds,
      t.start.outP + FuseOutHeader.codec.size ≤ r.cap ∧ inv t.start) ∧
    inv (runFrames fs dispatch r frames c).last := by
  induction frames generalizing c with
  | nil => exact ⟨fun _ member => absurd member List.not_mem_nil, initial⟩
  | cons f rest ih =>
    rw [runFrames]
    split
    · exact ⟨fun _ member => absurd member List.not_mem_nil, initial⟩
    next room =>
      have enough : c.outP + FuseOutHeader.codec.size ≤ r.cap := Nat.le_of_not_lt room
      obtain ⟨each, last⟩ := ih _ (step ⟨f, c⟩ enough initial)
      refine ⟨?_, last⟩
      intro t member
      rcases List.mem_cons.mp member with rfl | member
      · exact ⟨enough, initial⟩
      · exact each t member

/-- The rounds take the frames in order; all of them if none ran out of room. -/
theorem runFrames_frames (frames : List Frame) (c : Cursor σ) :
    let progress := runFrames fs dispatch r frames c
    progress.rounds.map Round.frame <+: frames ∧
      (progress.finished → progress.rounds.map Round.frame = frames) := by
  induction frames generalizing c with
  | nil => exact ⟨List.prefix_refl _, fun _ => rfl⟩
  | cons f rest ih =>
    dsimp only
    rw [runFrames]
    split
    · exact ⟨List.nil_prefix, fun finished => absurd finished (by simp)⟩
    · obtain ⟨taken, all⟩ := ih (Round.next fs dispatch r ⟨f, c⟩)
      exact ⟨(List.prefix_cons_inj f).mpr taken, fun finished => by simp [all finished]⟩

/-- Round `i` starts with the nodeids the rounds before it produced. -/
theorem runFrames_produced (frames : List Frame) (c : Cursor σ) (i : Nat) (t : Round σ)
    (here : (runFrames fs dispatch r frames c).rounds[i]? = some t) :
    t.start.produced = c.produced ++
      ((runFrames fs dispatch r frames c).rounds.take i).map (Round.prod fs dispatch r) := by
  induction frames generalizing c i with
  | nil => simp [runFrames] at here
  | cons f rest ih =>
    rw [runFrames] at here ⊢
    split at here
    · simp at here
    next room =>
      rw [if_neg room]
      cases i with
      | zero =>
        obtain rfl : ⟨f, c⟩ = t := by simpa using here
        simp
      | succ i =>
        have later := ih _ i (by simpa using here)
        rw [later]
        simp [Round.next]

end Rounds

/-! ### The whole handler -/

section Handler

variable {σ : Type} (fs : Filesystem σ) (dispatch : Dispatcher) (r : Replier) (body : Span)
  (w : World σ)

/-- The frames of a compound body. -/
def compoundFrames (m : Memory) (body : Span) : List Frame × Bool :=
  scanFrames m body body.len FuseCompoundIn.codec.size

/-- Every frame's payload lies inside the body. -/
theorem scanFrames_within (m : Memory) (body : Span) (fuel p : Nat) (f : Frame)
    (scanned : f ∈ (scanFrames m body fuel p).1) : f.payload.Within body := by
  induction fuel generalizing p with
  | zero => cases scanned
  | succ fuel ih =>
    rw [scanFrames] at scanned
    split at scanned
    next more =>
      cases found : frameAt m body p with
      | none =>
        rw [found] at scanned
        cases scanned
      | some g =>
        rw [found] at scanned
        rcases List.mem_cons.mp scanned with rfl | later
        · obtain ⟨headers, -, -, -, fits, payload⟩ := frameAt_some found
          rw [payload]
          constructor
          · dsimp only
            omega
          · dsimp only
            omega
        · exact ih _ later
    · cases scanned

/-- Scanning looks at the bytes of the body only. -/
theorem frameAt_congr {m m' : Memory} {body : Span}
    (same : ∀ a, body.base ≤ a → a < body.base + body.len → m a = m' a) (p : Nat) :
    frameAt m body p = frameAt m' body p := by
  by_cases short : body.len - p < frameHdrs
  · simp only [frameAt, short, true_or, if_true]
  · unfold frameHdrs at short
    have req : m.read (body.base + p) FuseCompoundReqIn.codec.size =
        m'.read (body.base + p) FuseCompoundReqIn.codec.size :=
      Memory.read_congr fun a lower upper => same a (by omega) (by omega)
    have header : m.read (body.base + (p + FuseCompoundReqIn.codec.size)) FuseInHeader.codec.size =
        m'.read (body.base + (p + FuseCompoundReqIn.codec.size)) FuseInHeader.codec.size :=
      Memory.read_congr fun a lower upper => same a (by omega) (by omega)
    unfold frameAt
    rw [req, header]

theorem scanFrames_congr {m m' : Memory} {body : Span}
    (same : ∀ a, body.base ≤ a → a < body.base + body.len → m a = m' a) (fuel p : Nat) :
    scanFrames m body fuel p = scanFrames m' body fuel p := by
  induction fuel generalizing p with
  | zero => rfl
  | succ fuel ih => simp only [scanFrames, frameAt_congr same, ih]

/-- The cursor the loop starts from: the reply begins with a zeroed `fuse_compound_out`. -/
def compoundStart : Cursor σ where
  outP := FuseCompoundOut.codec.size
  produced := []
  world := w.write .slot r.out (FuseCompoundOut.codec.enc {})

def compoundProgress : Progress σ :=
  runFrames fs dispatch r (compoundFrames (w.mem .scratch) body).1 (compoundStart r w)

variable {fs dispatch r body w} {allowed : Errc → Prop}

/-- Only frames of the body are run. -/
theorem compoundProgress_frame {t : Round σ}
    (round : t ∈ (compoundProgress fs dispatch r body w).rounds) :
    t.frame ∈ (compoundFrames (w.mem .scratch) body).1 := by
  have taken : (compoundProgress fs dispatch r body w).rounds.map Round.frame <+:
      (compoundFrames (w.mem .scratch) body).1 := (runFrames_frames _ _).1
  exact taken.subset (List.mem_map_of_mem round)

theorem handleCompound_small (h : FuseInHeader)
    (small : body.len < FuseCompoundIn.codec.size ∨ r.cap < FuseCompoundOut.codec.size) :
    handleCompound dispatch h body r = pure (replyError r Errc.invalidArgument) := by
  rw [handleCompound, if_pos small]

/-- A compound with room for its fixed parts runs its frames. -/
theorem handleCompound_spec (tame : Tame fs dispatch allowed) (h : FuseInHeader) (body : Span)
    (r : Replier) (w : World σ)
    (large : ¬(body.len < FuseCompoundIn.codec.size ∨ r.cap < FuseCompoundOut.codec.size)) :
    LoopSpec fs dispatch r body (handleCompound dispatch h body r) w
      (compoundFrames (w.mem .scratch) body).2 (compoundProgress fs dispatch r body w) := by
  have loop := compoundLoop_spec fs dispatch r tame body body.len FuseCompoundIn.codec.size
    (compoundStart r w)
  have scanned : (compoundStart r w).world.mem .scratch = w.mem .scratch := by
    simp [compoundStart]
  rw [scanned] at loop
  rw [handleCompound, if_neg large]
  refine ⟨?_, ?_, ?_, ?_⟩
  · rw [run_bind]
    exact loop.result
  · rw [trace_bind, callbacks_append, callbacks_store, List.nil_append]
    exact loop.calls
  · intro t member e logged
    rw [trace_bind, List.mem_append]
    exact .inr (loop.covers t member e logged)
  · intro e member
    rw [trace_bind, List.mem_append] at member
    rcases member with head | member
    · rw [List.mem_singleton.mp head]
      refine .inr (.inr ⟨rfl, .refl _, ?_⟩)
      simp only [Codec.length_enc, Replier.span]
      omega
    · exact loop.events e member

end Handler

/-! ### The dispatcher of the frames -/

section Frames

variable {σ : Type} {fs : Filesystem σ} {allowed : Errc → Prop} (opts : SessionOptions)

theorem dispatchLeaf_tame (errors : fs.ErrorsSatisfy allowed) :
    Tame fs (dispatchLeaf opts) allowed :=
  fun h body sub w => ⟨(dispatchLeaf_replied fs w opts h body sub errors).toAnswered,
    dispatchLeaf_touches fs w opts h body sub⟩

variable (fs) in
/-- Whatever errors the daemon returns. -/
theorem dispatchLeaf_tame_any : Tame fs (dispatchLeaf opts) fun _ => True :=
  dispatchLeaf_tame opts fun _ _ _ _ => trivial

theorem producesEntry_iff (op : Opcode) :
    producesEntry op.code ↔ op = .lookupx ∨ op = .mkobjx ∨ op = .lookupRoot := by
  cases op <;> decide

/-- A lookup that succeeds under nonzero errors has returned a whole entry. -/
theorem dispatchLeaf_entry (errors : fs.ErrorsSatisfy (· ≠ 0)) (h : FuseInHeader) (body : Span)
    (r : Replier) (w : World σ) (produces : producesEntry h.opcode)
    (success : (run (World.step fs) (dispatchLeaf opts h body r) w).1.negErr = 0) :
    (run (World.step fs) (dispatchLeaf opts h body r) w).1.len = FuseEntryxOut.codec.size := by
  have replied := dispatchLeaf_replied fs w opts h body r errors
  have sized := replied.succeeds (fun _ nonzero => nonzero) success
  have known := decodeAt_known (w.mem .scratch) h body
  rw [run_dispatchLeaf] at success
  cases decoded : decodeAt (w.mem .scratch) h body with
  -- The errors of the handlers themselves are not zero.
  | reject e =>
    rw [decoded] at success known
    exact absurd (negErrno_eq_zero.mp success) (ownErrors_ne_zero e known)
  -- Only a truncated BATCH_FORGET is ignored.
  | ignore =>
    rw [decoded] at known
    have code := (Opcode.ofCode_eq_some_iff _ _).mp known
    rw [code, producesEntry_iff] at produces
    simp at produces
  | accept q =>
    rw [decoded] at sized known
    have code := (Opcode.ofCode_eq_some_iff _ _).mp known
    rw [code, producesEntry_iff] at produces
    cases q with
    | lookupRoot | lookupx | mkobjx => exact sized
    | unlink isRmdir name => cases isRmdir <;> simp [Request.opcode] at produces
    | _ => simp [Request.opcode] at produces

/-- What a frame's payload decodes to. -/
def Frame.decoded (m : Memory) (f : Frame) : Decoded := decodeAt m f.header f.payload

/-- Decoding does not look at the nodeid, so it does not wait for a producer. -/
theorem Round.decoded_header (t : Round σ) (m : Memory) :
    decodeAt m t.header t.frame.payload = t.frame.decoded m := by
  unfold Frame.decoded Round.header threadNodeid
  split <;> rfl

theorem Round.handler_leaf (r : Replier) (t : Round σ) :
    t.handler (dispatchLeaf opts) r =
      dispatchLeaf opts t.header t.frame.payload (t.replier r) := by
  rw [Round.handler, dispatchSub_leaf]

/-- The rounds of a compound read the body as it was when the compound began. -/
theorem compoundProgress_scratch (r : Replier) (body : Span) (w : World σ) {t : Round σ}
    (round : t ∈ (compoundProgress fs (dispatchLeaf opts) r body w).rounds) :
    t.start.world.mem .scratch = w.mem .scratch := by
  have tame := dispatchLeaf_tame_any fs opts
  have kept := (runFrames_invariant (fun c => c.world.mem .scratch = w.mem .scratch)
    (fun t _ same => (t.next_scratch r tame).trans same) _ (compoundStart r w)
    (World.write_mem_scratch _ _ _)).1 t round
  exact kept.2

/-- Every callback of a compound is made by one of its rounds. -/
theorem callbacks_compound (h : FuseInHeader) (body : Span) (r : Replier) (w : World σ)
    {cb : Callback}
    (called : cb ∈ callbacks (trace (World.step fs)
      (handleCompound (dispatchLeaf opts) h body r) w)) :
    ∃ t ∈ (compoundProgress fs (dispatchLeaf opts) r body w).rounds,
      cb ∈ callbacks (t.log fs (dispatchLeaf opts) r) := by
  by_cases small : body.len < FuseCompoundIn.codec.size ∨ r.cap < FuseCompoundOut.codec.size
  · rw [handleCompound_small h small] at called
    cases called
  · have tame := dispatchLeaf_tame_any fs opts
    rw [(handleCompound_spec tame h body r w small).calls] at called
    exact List.mem_flatMap.mp called

/-! As in the source, the frames' dispatcher may be read as `dispatch` itself. -/

variable (fs) (r : Replier)

theorem Round.handler_dispatch (t : Round σ) :
    t.handler (dispatch opts) r = t.handler (dispatchLeaf opts) r := by
  rw [Round.handler, dispatchSub_dispatch, Round.handler]

theorem Round.result_dispatch (t : Round σ) :
    t.result fs (dispatch opts) r = t.result fs (dispatchLeaf opts) r := by
  rw [Round.result, Round.handler_dispatch, Round.result]

theorem Round.next_dispatch (t : Round σ) :
    t.next fs (dispatch opts) r = t.next fs (dispatchLeaf opts) r := by
  simp only [Round.next, Round.outHeader, Round.prod, Round.result_dispatch]

theorem runFrames_dispatch (frames : List Frame) (c : Cursor σ) :
    runFrames fs (dispatch opts) r frames c = runFrames fs (dispatchLeaf opts) r frames c := by
  induction frames generalizing c with
  | nil => rfl
  | cons f rest ih => simp only [runFrames, Round.next_dispatch, ih]

theorem Round.log_dispatch (t : Round σ) :
    t.log fs (dispatch opts) r = t.log fs (dispatchLeaf opts) r := by
  rw [Round.log, Round.handler_dispatch, Round.log]

theorem compoundProgress_dispatch (body : Span) (w : World σ) :
    compoundProgress fs (dispatch opts) r body w =
      compoundProgress fs (dispatchLeaf opts) r body w :=
  runFrames_dispatch fs opts r _ _

/-- The log of `handle_compound` consists of those of its rounds and of accesses of its
own: it reads the body, and reads and writes the reply area. -/
structure Comprises (h : FuseInHeader) (body : Span) (w : World σ) : Prop where
  rounds : ∀ t ∈ (compoundProgress fs (dispatch opts) r body w).rounds,
    ∀ e ∈ t.log fs (dispatch opts) r,
      e ∈ trace (World.step fs) (handleCompound (dispatch opts) h body r) w
  events : ∀ e ∈ trace (World.step fs) (handleCompound (dispatch opts) h body r) w,
    (∃ t ∈ (compoundProgress fs (dispatch opts) r body w).rounds,
      e ∈ t.log fs (dispatch opts) r) ∨
    ReadsBody body body.len e.1 ∨ e.1.SlotWithin r.span

/-- A compound without room for its fixed parts runs no frame. -/
theorem compoundProgress_small {body : Span} (w : World σ)
    (small : body.len < FuseCompoundIn.codec.size ∨ r.cap < FuseCompoundOut.codec.size) :
    (compoundProgress fs (dispatch opts) r body w).rounds = [] := by
  rcases small with short | narrow
  · have none : compoundFrames (w.mem .scratch) body = ([], true) := by
      unfold compoundFrames
      cases body.len with
      | zero => rfl
      | succ n => rw [scanFrames, if_neg (Nat.not_lt.mpr (Nat.le_of_lt short))]
    rw [compoundProgress, none]
    rfl
  · have full : (compoundStart r w).outP + FuseOutHeader.codec.size > r.cap := by
      simp only [compoundStart]
      omega
    rw [compoundProgress]
    cases (compoundFrames (w.mem .scratch) body).1 with
    | nil => rfl
    | cons f rest => rw [runFrames, if_pos full]

theorem handleCompound_comprises (h : FuseInHeader) (body : Span) (w : World σ) :
    Comprises fs opts r h body w := by
  by_cases small : body.len < FuseCompoundIn.codec.size ∨ r.cap < FuseCompoundOut.codec.size
  · refine ⟨fun t round => ?_, fun e logged => ?_⟩
    · rw [compoundProgress_small fs opts r w small] at round
      cases round
    · rw [handleCompound_small h small] at logged
      cases logged
  · have spec := handleCompound_spec (dispatchLeaf_tame_any fs opts) h body r w small
    refine ⟨fun t round e logged => ?_, fun e logged => ?_⟩
    · rw [compoundProgress_dispatch] at round
      rw [Round.log_dispatch] at logged
      rw [handleCompound_dispatch]
      exact spec.covers t round e logged
    · rw [handleCompound_dispatch] at logged
      rw [compoundProgress_dispatch]
      rcases spec.events e logged with ⟨t, round, sub⟩ | own
      · exact .inl ⟨t, round, by rwa [Round.log_dispatch]⟩
      · exact .inr own

end Frames

end Fex
