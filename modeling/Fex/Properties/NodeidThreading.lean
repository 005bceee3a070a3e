import Fex.Scripted
import Fex.Sequential

/-!
# Which node a dependent sub-request runs on

## Main result

`compound_threads_nodeid`: the callbacks of a frame that names an earlier frame as its
producer run on the nodeid of the entry that frame replied, on `NodeId::invalid` if it
replied none, and a frame that names no earlier one runs on the nodeid of its own
header.

## Proof strategy

Every callback takes its node and its context from the header (`Request.callback_runsOn`);
the header's nodeid is what the producer's round left (`runFrames_produced`); and a round
leaves the nodeid of the entry in its reply, or 0 (`Round.prod_entry`, `Round.prod_zero`).
-/
namespace Fex

open Foundation Program

/-! ### The node of a callback -/

/-- The node of a callback that is named in the request's header. -/
def Callback.node? : Callback → Option NodeId
  | init _ | lookupRoot _ | forgetMulti _ => none
  | lookupx _ node _ | forget node _ | statx _ node | setstatx _ node _ _ | mkobjx _ node _
  | unlink _ node _ | rmdir _ node _ | rename _ node _ _ _ _ | link _ _ node _
  | readlink _ node | openFile _ node _ | release _ node _ _ | read _ node _ _ _
  | write _ node _ _ _ | fallocate _ node _ _ _ _ | statfs _ node | opendir _ node
  | releasedir _ node _ | readdir _ node _ _ _ | getxattr _ node _ _ | setxattr _ node _ _ _
  | listxattr _ node _ | removexattr _ node _ => some node

def Callback.context? : Callback → Option Context
  | init _ | forget .. | forgetMulti _ => none
  | lookupRoot ctx | lookupx ctx _ _ | statx ctx _ | setstatx ctx _ _ _ | mkobjx ctx _ _
  | unlink ctx _ _ | rmdir ctx _ _ | rename ctx _ _ _ _ _ | link ctx _ _ _ | readlink ctx _
  | openFile ctx _ _ | release ctx _ _ _ | read ctx _ _ _ _ | write ctx _ _ _ _
  | fallocate ctx _ _ _ _ _ | statfs ctx _ | opendir ctx _ | releasedir ctx _ _
  | readdir ctx _ _ _ _ | getxattr ctx _ _ _ | setxattr ctx _ _ _ _ | listxattr ctx _ _
  | removexattr ctx _ _ => some ctx

/-- The callback is given `node`, and so is its context. -/
def Callback.RunsOn (node : NodeId) (cb : Callback) : Prop :=
  (∀ n ∈ cb.node?, n = node) ∧ ∀ ctx ∈ cb.context?, ctx.nodeid = node

theorem Request.callback_runsOn (opts : SessionOptions) (h : FuseInHeader) (span : Bytes)
    (q : Request) : (q.callback opts h span).RunsOn h.nodeid := by
  cases q with
  | unlink isRmdir name =>
    cases isRmdir <;>
      simp [Request.callback, Callback.RunsOn, Callback.node?, Callback.context?, makeCtx]
  | _ => simp [Request.callback, Callback.RunsOn, Callback.node?, Callback.context?, makeCtx]

/-! ### The entry a lookup replies -/

/-- The entry a callback answered with. -/
def Callback.Answer.entry? : (cb : Callback) → cb.Answer → Option EntryOut
  | .lookupRoot _, answer | .lookupx .., answer | .mkobjx .., answer => Except.toOption answer
  | _, _ => none

theorem FuseEntryxOut.take_enc (entry : FuseEntryxOut) :
    Codec.u64.dec ((FuseEntryxOut.codec.enc entry).take Codec.u64.size) = entry.nodeid := by
  have first : (FuseEntryxOut.codec.enc entry).take Codec.u64.size =
      Codec.u64.enc entry.nodeid := List.take_left' (Codec.length_enc _ _)
  rw [first, Codec.dec_enc]

section Rounds

variable {σ : Type} (fs : Filesystem σ)

/-- The daemon answered one of the logged callbacks with an entry for the node. -/
def AnsweredNode (log : List Event) (node : NodeId) : Prop :=
  ∃ cb answer entry, (⟨.call cb, answer⟩ : Event) ∈ log ∧
    Callback.Answer.entry? cb answer = some entry ∧ entry.nodeid = node

/-- The sub-reply of the round is a success that carries `entry`, for the node that the
daemon answered with. -/
structure Round.RepliesEntry (dispatch : Dispatcher) (r : Replier) (t : Round σ)
    (entry : FuseEntryxOut) : Prop where
  produces : producesEntry t.header.opcode
  success : (t.result fs dispatch r).1.negErr = 0
  bytes : ((t.result fs dispatch r).2.mem .slot).read (t.replier r).out
    (t.result fs dispatch r).1.len = FuseEntryxOut.codec.enc entry
  answered : AnsweredNode (t.log fs dispatch r) entry.nodeid

variable (opts : SessionOptions) (r : Replier) (w : World σ)

/-- A payload replied with success is in the reply area. -/
theorem replyPayload_bytes (p : Bytes)
    (success : (run (World.step fs) (replyPayload r p) w).1.negErr = 0) :
    ((run (World.step fs) (replyPayload r p) w).2.mem .slot).read r.out
      (run (World.step fs) (replyPayload r p) w).1.len = p := by
  unfold replyPayload at success ⊢
  split at success
  · have refused : negErrno Errc.ioError = 0 := success
    exact absurd refused (by decide)
  next fits =>
    rw [if_neg fits]
    cases p with
    | nil => rfl
    | cons b rest =>
      change ((w.write .slot (r.out + 0) (b :: rest)).mem .slot).read r.out _ = b :: rest
      rw [World.write_mem_same]
      exact Memory.read_write_same (w.mem .slot) r.out (b :: rest)

/-- Packing the daemon's answer: a success with at least a nodeid in it has the whole
entry. -/
theorem withAnswer_entry (rv : Except Errc EntryOut) (pack : EntryOut → FuseEntryxOut)
    (success : (run (World.step fs)
      (withAnswer r rv fun out => replyPod FuseEntryxOut.codec r (pack out)) w).1.negErr = 0)
    (long : Codec.u64.size ≤ (run (World.step fs)
      (withAnswer r rv fun out => replyPod FuseEntryxOut.codec r (pack out)) w).1.len) :
    ∃ out, rv.toOption = some out ∧ ((run (World.step fs)
      (withAnswer r rv fun out => replyPod FuseEntryxOut.codec r (pack out)) w).2.mem .slot).read
        r.out (run (World.step fs)
          (withAnswer r rv fun out => replyPod FuseEntryxOut.codec r (pack out)) w).1.len =
            FuseEntryxOut.codec.enc (pack out) := by
  cases rv with
  | error e =>
    have empty : Codec.u64.size ≤ 0 := long
    exact absurd empty (by decide)
  | ok out => exact ⟨out, rfl, replyPayload_bytes fs r w _ success⟩

/-- A lookup that replied with success, and with at least a nodeid, replied an entry for
the daemon's node. -/
theorem serve_entry (h : FuseInHeader) (q : Request) (produces : producesEntry q.opcode.code)
    (success : (run (World.step fs) (serve opts h r q) w).1.negErr = 0)
    (long : Codec.u64.size ≤ (run (World.step fs) (serve opts h r q) w).1.len) :
    ∃ entry : FuseEntryxOut,
      ((run (World.step fs) (serve opts h r q) w).2.mem .slot).read r.out
        (run (World.step fs) (serve opts h r q) w).1.len = FuseEntryxOut.codec.enc entry ∧
      AnsweredNode (trace (World.step fs) (serve opts h r q) w) entry.nodeid := by
  rw [producesEntry_iff] at produces
  -- The first operation is the callback; what it answered is then packed.
  cases q with
  | lookupRoot =>
    obtain ⟨out, answered, bytes⟩ := withAnswer_entry fs r
      { w with fs := (fs.lookupRoot (makeCtx h) w.fs).2 } (fs.lookupRoot (makeCtx h) w.fs).1
      entryxOut success long
    exact ⟨_, bytes, .lookupRoot (makeCtx h), _, out, List.mem_cons_self, answered, rfl⟩
  | lookupx name =>
    obtain ⟨out, answered, bytes⟩ := withAnswer_entry fs r
      { w with fs := (fs.lookupx (makeCtx h) h.nodeid name w.fs).2 }
      (fs.lookupx (makeCtx h) h.nodeid name w.fs).1 entryxOut success long
    exact ⟨_, bytes, .lookupx (makeCtx h) h.nodeid name, _, out, List.mem_cons_self, answered, rfl⟩
  | mkobjx obj =>
    obtain ⟨out, answered, bytes⟩ := withAnswer_entry fs r
      { w with fs := (fs.mkobjx (makeCtx h) h.nodeid obj w.fs).2 }
      (fs.mkobjx (makeCtx h) h.nodeid obj w.fs).1
      (fun out => { entryxOut out with flags := 0 }) success long
    exact ⟨_, bytes, .mkobjx (makeCtx h) h.nodeid obj, _, out, List.mem_cons_self, answered, rfl⟩
  | unlink isRmdir name => cases isRmdir <;> simp [Request.opcode] at produces
  | _ => simp [Request.opcode] at produces

variable {r} {t : Round σ}

/-- A round that leaves a nodeid has replied an entry. -/
theorem Round.exists_entry (produces : producesEntry t.header.opcode)
    (success : (t.result fs (dispatchLeaf opts) r).1.negErr = 0)
    (long : Codec.u64.size ≤ (t.result fs (dispatchLeaf opts) r).1.len) :
    ∃ entry, t.RepliesEntry fs (dispatchLeaf opts) r entry := by
  have known := decodeAt_known (t.start.world.mem .scratch) t.header t.frame.payload
  have result : t.result fs (dispatchLeaf opts) r = run (World.step fs) (respond opts t.header
      (t.replier r) (decodeAt (t.start.world.mem .scratch) t.header t.frame.payload))
        t.start.world := by
    rw [Round.result, Round.handler_leaf, run_dispatchLeaf]
  have log : trace (World.step fs) (respond opts t.header (t.replier r)
      (decodeAt (t.start.world.mem .scratch) t.header t.frame.payload)) t.start.world ⊆
        t.log fs (dispatchLeaf opts) r := by
    rw [Round.log, Round.handler_leaf, dispatchLeaf_eq, trace_bind, run_decode]
    exact List.subset_append_right _ _
  cases decoded : decodeAt (t.start.world.mem .scratch) t.header t.frame.payload with
  | accept q =>
    rw [decoded] at known result log
    have code := (Opcode.ofCode_eq_some_iff _ _).mp known
    have served : t.result fs (dispatchLeaf opts) r =
        run (World.step fs) (serve opts t.header (t.replier r) q) t.start.world := result
    rw [served] at success long
    obtain ⟨entry, bytes, cb, answer, out, member, answered⟩ :=
      serve_entry fs opts (t.replier r) t.start.world t.header q (code ▸ produces) success long
    rw [← served] at success bytes
    exact ⟨entry, produces, success, bytes, cb, answer, out, log member, answered⟩
  | reject e | ignore =>
    -- Nothing but the library's own reply, which is empty.
    rw [decoded] at result
    rw [result] at long
    have empty : Codec.u64.size ≤ 0 := long
    exact absurd empty (by decide)

/-- The nodeid a round leaves is that of the entry it replied. -/
theorem Round.prod_entry {entry : FuseEntryxOut}
    (replies : t.RepliesEntry fs (dispatchLeaf opts) r entry) :
    t.prod fs (dispatchLeaf opts) r = entry.nodeid := by
  have tame := dispatchLeaf_tame_any fs opts
  have answered := (t.result_tame r tame).1
  have len : (t.result fs (dispatchLeaf opts) r).1.len = FuseEntryxOut.codec.size := by
    have length := congrArg List.length replies.bytes
    rwa [Memory.length_read, Codec.length_enc] at length
  have long : Codec.u64.size ≤ (t.result fs (dispatchLeaf opts) r).1.len := by
    rw [len]
    decide
  have head := Memory.take_read ((t.result fs (dispatchLeaf opts) r).2.mem .slot) (t.replier r).out
    _ _ long
  rw [replies.bytes] at head
  unfold Round.prod producedBy
  rw [if_pos ⟨replies.success, long, replies.produces⟩]
  simp only [run_bind, run_load, run_pure, Replier.span, Nat.add_zero, answered.out]
  rw [← head]
  exact FuseEntryxOut.take_enc entry

/-- A round that replied no entry leaves 0. -/
theorem Round.prod_zero (none : ∀ entry, ¬t.RepliesEntry fs (dispatchLeaf opts) r entry) :
    t.prod fs (dispatchLeaf opts) r = NodeId.invalid := by
  unfold Round.prod producedBy
  split
  next has =>
    obtain ⟨entry, replies⟩ := t.exists_entry fs opts has.2.2 has.1 has.2.1
    exact absurd replies (none entry)
  · rfl

/-- The callbacks of the round run on `node`. -/
def Round.RunsOn (dispatch : Dispatcher) (r : Replier) (t : Round σ) (node : NodeId) : Prop :=
  ∀ cb ∈ callbacks (t.log fs dispatch r), cb.RunsOn node

theorem Round.runsOn_header (t : Round σ) :
    t.RunsOn fs (dispatchLeaf opts) r t.header.nodeid := by
  intro cb member
  rw [Round.log, Round.handler_leaf, callbacks_dispatchLeaf] at member
  cases decoded : decodeAt (t.start.world.mem .scratch) t.header t.frame.payload with
  | accept q =>
    rw [decoded] at member
    rw [List.mem_singleton.mp member]
    exact q.callback_runsOn opts t.header _
  | reject e | ignore =>
    rw [decoded] at member
    cases member

end Rounds

/-! ### Producers -/

section Producers

variable {σ : Type} (fs : Filesystem σ) (opts : SessionOptions) (r : Replier) (body : Span)
  (w : World σ)

/-- The header of a dependent round: the nodeid its producer left, or its own. -/
theorem Round.header_nodeid {dispatch : Dispatcher} {i : Nat} {t : Round σ}
    (here : (compoundProgress fs dispatch r body w).rounds[i]? = some t)
    (dependent : t.frame.req.depIndex ≠ fuseCompoundNoDep) :
    (t.frame.req.depIndex.toNat < i →
      ∃ p, (compoundProgress fs dispatch r body w).rounds[t.frame.req.depIndex.toNat]? = some p ∧
        t.header.nodeid = p.prod fs dispatch r) ∧
    (i ≤ t.frame.req.depIndex.toNat → t.header = t.frame.header) := by
  have produced : t.start.produced =
      ((compoundProgress fs dispatch r body w).rounds.take i).map (Round.prod fs dispatch r) :=
    (runFrames_produced _ _ i t here).trans (List.nil_append _)
  have bound : i < (compoundProgress fs dispatch r body w).rounds.length :=
    (List.getElem?_eq_some_iff.mp here).1
  have count : t.start.produced.length = i := by
    rw [produced, List.length_map, List.length_take_of_le (Nat.le_of_lt bound)]
  refine ⟨?_, ?_⟩
  · intro earlier
    refine ⟨_, List.getElem?_eq_getElem (Nat.lt_trans earlier bound), ?_⟩
    rw [Round.header, threadNodeid, if_pos ⟨dependent, by omega⟩]
    dsimp only
    rw [produced, List.getD_eq_getElem?_getD, List.getElem?_map, List.getElem?_take,
      if_pos earlier, List.getElem?_eq_getElem (Nat.lt_trans earlier bound)]
    rfl
  · intro forward
    rw [Round.header, threadNodeid, if_neg]
    rintro ⟨-, earlier⟩
    omega

/-- Where the callbacks of a dependent round run. -/
structure RunsOnProduced (rounds : List (Round σ)) (i : Nat) (t : Round σ) : Prop where
  backward : t.frame.req.depIndex.toNat < i →
    ∃ p, rounds[t.frame.req.depIndex.toNat]? = some p ∧
      (∀ entry, p.RepliesEntry fs (dispatch opts) r entry →
        t.RunsOn fs (dispatch opts) r entry.nodeid) ∧
      ((∀ entry, ¬p.RepliesEntry fs (dispatch opts) r entry) →
        t.RunsOn fs (dispatch opts) r NodeId.invalid)
  forward : i ≤ t.frame.req.depIndex.toNat →
    t.RunsOn fs (dispatch opts) r t.frame.header.nodeid

theorem Round.repliesEntry_dispatch (t : Round σ) (entry : FuseEntryxOut) :
    t.RepliesEntry fs (dispatch opts) r entry ↔
      t.RepliesEntry fs (dispatchLeaf opts) r entry := by
  constructor
  · rintro ⟨produces, success, bytes, answered⟩
    rw [Round.result_dispatch] at success bytes
    rw [Round.log_dispatch] at answered
    exact ⟨produces, success, bytes, answered⟩
  · rintro ⟨produces, success, bytes, answered⟩
    rw [← Round.result_dispatch] at success bytes
    rw [← Round.log_dispatch] at answered
    exact ⟨produces, success, bytes, answered⟩

theorem Round.runsOn_dispatch (t : Round σ) :
    t.RunsOn fs (dispatch opts) r t.header.nodeid := by
  rw [Round.RunsOn, Round.log_dispatch]
  exact t.runsOn_header fs opts

/-- Every callback of a compound is made by the round of one of its frames, in order, and
the rounds of dependent frames run on what their producers replied. -/
theorem compound_threads_nodeid (h : FuseInHeader) :
    let rounds := (compoundProgress fs (dispatch opts) r body w).rounds
    rounds.map Round.frame <+: (compoundFrames (w.mem .scratch) body).1 ∧
    (∀ cb ∈ callbacks (trace (World.step fs) (handleCompound (dispatch opts) h body r) w),
      ∃ t ∈ rounds, cb ∈ callbacks (t.log fs (dispatch opts) r)) ∧
    ∀ i t, rounds[i]? = some t → t.frame.req.depIndex ≠ fuseCompoundNoDep →
      RunsOnProduced fs opts r rounds i t := by
  intro rounds
  refine ⟨(runFrames_frames _ _).1, ?_, ?_⟩
  · intro cb member
    rw [handleCompound_dispatch] at member
    obtain ⟨t, among, called⟩ := callbacks_compound opts h body r w member
    rw [← compoundProgress_dispatch] at among
    exact ⟨t, among, by rwa [Round.log_dispatch]⟩
  · intro i t here dependent
    obtain ⟨backward, forward⟩ := Round.header_nodeid fs r body w here dependent
    have runs := t.runsOn_dispatch fs opts r
    refine ⟨?_, ?_⟩
    · intro earlier
      obtain ⟨p, producer, node⟩ := backward earlier
      have prod : p.prod fs (dispatch opts) r = p.prod fs (dispatchLeaf opts) r := by
        rw [Round.prod, Round.result_dispatch, Round.prod]
      refine ⟨p, producer, ?_, ?_⟩
      · intro entry replies
        rw [Round.repliesEntry_dispatch] at replies
        rwa [node, prod, p.prod_entry fs opts replies] at runs
      · intro none
        have left := p.prod_zero fs opts fun entry replies =>
          none entry ((p.repliesEntry_dispatch fs opts r entry).mpr replies)
        rwa [node, prod, left] at runs
    · intro later
      rwa [forward later] at runs

end Producers

/-! ### A producer that failed -/

/-- A dependent round calls the daemon only on the node of a positive entry. -/
def RunsOnPositive {σ : Type} (fs : Filesystem σ) (opts : SessionOptions) (r : Replier)
    (rounds : List (Round σ)) (i : Nat) (t : Round σ) : Prop :=
  callbacks (t.log fs (dispatch opts) r) ≠ [] →
    t.frame.req.depIndex.toNat < i ∧ ∃ p entry, rounds[t.frame.req.depIndex.toNat]? = some p ∧
      p.RepliesEntry fs (dispatch opts) r entry ∧ entry.flags &&& fuseEntryxNegative = 0 ∧
      t.RunsOn fs (dispatch opts) r entry.nodeid

section FailedProducer

def lookupRootRequest : SubRequest where
  req := { depIndex := fuseCompoundNoDep }
  header := { len := 40, opcode := Opcode.lookupRoot.code }
  payload := []
  len_eq := rfl

/-- UNLINK of `a` in the node that the first sub-request produces. -/
def dependentUnlink : SubRequest where
  req := { depIndex := 0 }
  header := { len := 42, opcode := Opcode.unlink.code, nodeid := 5 }
  payload := [97, 0]
  len_eq := rfl

def lookupThenUnlink : Memory :=
  Memory.write (fun _ => 0) FuseCompoundIn.codec.size
    (lookupRootRequest.encode ++ dependentUnlink.encode)

theorem lookupThenUnlink_frames : compoundFrames lookupThenUnlink ⟨0, 106⟩ =
    ([lookupRootRequest.frame 16, dependentUnlink.frame 60], true) := rfl

/-- The round of the lookup, with room for both replies. -/
def lookupRound : Round Unit :=
  ⟨lookupRootRequest.frame 16, compoundStart { cap := 4096 }
    { mem := fun _ => lookupThenUnlink, initDone := true, fs := () }⟩

theorem lookupRound_scratch : lookupRound.start.world.mem .scratch = lookupThenUnlink :=
  World.write_mem_scratch ..

/-- The daemon fails the lookup. -/
theorem lookupRound_result (r : Replier) :
    (lookupRound.result (Filesystem.failing Errc.ioError) (dispatchLeaf {}) r).1 =
      replyError (lookupRound.replier r) Errc.ioError := by
  rw [Round.result, Round.handler_leaf, run_dispatchLeaf]
  rfl

def unlinkRound : Round Unit :=
  ⟨dependentUnlink.frame 60, lookupRound.next (Filesystem.failing Errc.ioError) (dispatchLeaf {})
    { cap := 4096 }⟩

theorem unlinkRound_outP : unlinkRound.start.outP = 32 := by
  have moved := lookupRound.next_outP (Filesystem.failing Errc.ioError) (dispatchLeaf {})
    { cap := 4096 }
  rw [lookupRound_result] at moved
  exact moved

theorem lookupThenUnlink_rounds :
    (compoundProgress (Filesystem.failing Errc.ioError) (dispatch {}) { cap := 4096 } ⟨0, 106⟩
      { mem := fun _ => lookupThenUnlink, initDone := true, fs := () }).rounds =
        [lookupRound, unlinkRound] := by
  have room : ¬unlinkRound.start.outP + FuseOutHeader.codec.size > 4096 := by
    rw [unlinkRound_outP]
    decide
  rw [compoundProgress_dispatch, compoundProgress, lookupThenUnlink_frames]
  refine (runFrames_rounds_cons _ _ _ (by decide)).trans (congrArg (lookupRound :: ·) ?_)
  exact runFrames_rounds_cons _ _ _ room

theorem lookupRound_no_entry (r : Replier) (entry : FuseEntryxOut) :
    ¬lookupRound.RepliesEntry (Filesystem.failing Errc.ioError) (dispatch {}) r entry := by
  intro replies
  have success := replies.success
  rw [Round.result_dispatch, lookupRound_result] at success
  exact absurd success (show negErrno Errc.ioError ≠ 0 by decide)

/-- The unlink runs on node 0. -/
theorem compound_threads_nodeid_failed :
    unlinkRound.RunsOn (Filesystem.failing Errc.ioError) (dispatch {}) { cap := 4096 }
      NodeId.invalid := by
  have threads := (compound_threads_nodeid (Filesystem.failing Errc.ioError) {} { cap := 4096 }
    ⟨0, 106⟩ { mem := fun _ => lookupThenUnlink, initDone := true, fs := () } {}).2.2
  rw [lookupThenUnlink_rounds] at threads
  obtain ⟨p, producer, -, invalid⟩ := (threads 1 unlinkRound rfl (by decide)).backward (by decide)
  obtain rfl : lookupRound = p := Option.some.inj producer
  exact invalid (lookupRound_no_entry _)

/-- Its callback is made although nothing was produced. -/
theorem unlinkRound_callbacks (r : Replier) :
    callbacks (unlinkRound.log (Filesystem.failing Errc.ioError) (dispatchLeaf {}) r) ≠ [] := by
  have tame := dispatchLeaf_tame_any (Filesystem.failing Errc.ioError) {}
  have scratch : unlinkRound.start.world.mem .scratch = lookupThenUnlink :=
    (lookupRound.next_scratch { cap := 4096 } tame).trans lookupRound_scratch
  have decoded :
      (dependentUnlink.frame 60).decoded lookupThenUnlink = .accept (.unlink false [97]) := rfl
  rw [Round.log, Round.handler_leaf, callbacks_dispatchLeaf, Round.decoded_header, scratch]
  change ((dependentUnlink.frame 60).decoded lookupThenUnlink).callbacks _ _ _ _ ≠ []
  rw [decoded]
  exact List.cons_ne_nil _ _

/-- The daemon fails the lookup, and is then asked to unlink nevertheless. -/
theorem lookupThenUnlink_unproduced :
    let rounds := (compoundProgress (Filesystem.failing Errc.ioError) (dispatch {})
      { cap := 4096 } ⟨0, 106⟩
      { mem := fun _ => lookupThenUnlink, initDone := true, fs := () }).rounds
    ∃ t, rounds[1]? = some t ∧ t.frame.req.depIndex ≠ fuseCompoundNoDep ∧
      ¬RunsOnPositive (Filesystem.failing Errc.ioError) {} { cap := 4096 } rounds 1 t := by
  intro rounds
  have two : rounds = [lookupRound, unlinkRound] := lookupThenUnlink_rounds
  rw [two]
  refine ⟨unlinkRound, rfl, by decide, ?_⟩
  intro positive
  rw [RunsOnPositive, Round.log_dispatch] at positive
  obtain ⟨-, p, entry, producer, replies, -⟩ := positive (unlinkRound_callbacks _)
  obtain rfl : lookupRound = p := Option.some.inj producer
  exact lookupRound_no_entry _ entry replies

end FailedProducer

end Fex
