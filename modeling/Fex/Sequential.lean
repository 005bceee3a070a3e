import Fex.Compound

/-!
# Sequential dispatch

What a compound means: its sub-requests are dispatched one after the other, each
with the nodeid its producer returned, and the replies are concatenated behind their
out-headers. `walkReplies` is the kernel's view of the result: it finds each
sub-reply by the length of the one before it.
-/
namespace Fex

open Foundation Program

/-- A sub-request as the kernel lays it out. -/
structure SubRequest where
  req : FuseCompoundReqIn
  header : FuseInHeader
  payload : Bytes
  len_eq : header.len.toNat = FuseInHeader.codec.size + payload.length

namespace SubRequest

def encode (q : SubRequest) : Bytes :=
  FuseCompoundReqIn.codec.enc q.req ++ (FuseInHeader.codec.enc q.header ++ q.payload)

@[simp] theorem length_encode (q : SubRequest) :
    q.encode.length = frameHdrs + q.payload.length := by
  simp only [encode, frameHdrs, List.length_append, Codec.length_enc]
  omega

/-- The frame of a sub-request whose encoding starts at address `place`. -/
def frame (q : SubRequest) (place : Nat) : Frame :=
  ⟨q.req, q.header, ⟨place + frameHdrs, q.payload.length⟩⟩

/-- The header that is passed on for the sub-request at position `i`: its own, with the
nodeid that the sub-request it depends on has produced, if that is an earlier one. -/
def passed (q : SubRequest) (produced : List UInt64) (i : Nat) : FuseInHeader :=
  { q.header with
    nodeid :=
      if q.req.depIndex ≠ 0xff ∧ q.req.depIndex.toNat < i then
        produced.getD q.req.depIndex.toNat 0
      else q.header.nodeid }

/-- What is produced later does not matter. -/
theorem passed_append (q : SubRequest) (produced later : List UInt64) :
    q.passed (produced ++ later) produced.length = q.passed produced produced.length := by
  by_cases earlier : q.req.depIndex.toNat < produced.length
  · simp only [passed, List.getD_eq_getElem?_getD, List.getElem?_append_left earlier]
  · simp only [passed, earlier, and_false, if_false]

/-- The loop passes on the same header. -/
theorem threadNodeid_eq_passed (q : SubRequest) (produced : List UInt64) :
    threadNodeid produced q.req q.header = q.passed produced produced.length := by
  have noDep : fuseCompoundNoDep = 0xff := rfl
  rw [threadNodeid, noDep, passed]
  split <;> rfl

end SubRequest

/-- The frames of sub-requests laid out from address `place` on. -/
def placeFrames : Nat → List SubRequest → List Frame
  | _, [] => []
  | place, q :: rest => q.frame place :: placeFrames (place + q.encode.length) rest

structure SubReply where
  error : Int32
  unique : UInt64
  data : Bytes

namespace SubReply

def header (p : SubReply) : FuseOutHeader :=
  { len := UInt32.ofNat (FuseOutHeader.codec.size + p.data.length)
    error := p.error
    unique := p.unique }

def encode (p : SubReply) : Bytes := FuseOutHeader.codec.enc p.header ++ p.data

@[simp] theorem length_encode (p : SubReply) :
    p.encode.length = FuseOutHeader.codec.size + p.data.length := by
  simp only [encode, List.length_append, Codec.length_enc]

/-- The nodeid a successful LOOKUPX, MKOBJX or LOOKUP_ROOT returned: the first word of
its reply. -/
def nodeid (opcode : UInt32) (p : SubReply) : UInt64 :=
  if p.error = 0 ∧ (opcode = Opcode.lookupx.code ∨ opcode = Opcode.mkobjx.code ∨
      opcode = Opcode.lookupRoot.code) then Codec.u64.dec (p.data.take Codec.u64.size)
  else 0

theorem nodeid_eq (opcode : UInt32) (p : SubReply) :
    p.nodeid opcode =
      if p.error = 0 ∧ producesEntry opcode then Codec.u64.dec (p.data.take Codec.u64.size)
      else 0 := by
  simp only [nodeid, producesEntry, Bool.or_eq_true, decide_eq_true_eq, or_assoc]

/-- The length field of the header does not truncate. -/
def Sized (p : SubReply) : Prop := FuseOutHeader.codec.size + p.data.length < 2 ^ 32

theorem header_len {p : SubReply} (sized : p.Sized) :
    p.header.len.toNat = FuseOutHeader.codec.size + p.data.length :=
  UInt32.toNat_ofNat_of_lt' sized

end SubReply

/-- Split a reply area into sub-replies, each found by its predecessor's length. -/
def walkReplies : (fuel : Nat) → Bytes → Option (List SubReply)
  | 0, bytes => if bytes = [] then some [] else none
  | fuel + 1, bytes =>
    if bytes = [] then some []
    else
      let oh := FuseOutHeader.codec.dec (bytes.take FuseOutHeader.codec.size)
      if oh.len.toNat < FuseOutHeader.codec.size ∨ bytes.length < oh.len.toNat then none
      else do
        let rest ← walkReplies fuel (bytes.drop oh.len.toNat)
        some (⟨oh.error, oh.unique,
          (bytes.take oh.len.toNat).drop FuseOutHeader.codec.size⟩ :: rest)

/-- The head of an encoded sub-reply is its out-header. -/
theorem SubReply.dec_encode (p : SubReply) (rest : Bytes) :
    FuseOutHeader.codec.dec ((p.encode ++ rest).take FuseOutHeader.codec.size) = p.header := by
  rw [encode, List.append_assoc]
  exact Codec.dec_take_enc _ _ _

/-- Walking the concatenation of sub-replies finds exactly them. -/
theorem walkReplies_encode (replies : List SubReply) (sized : ∀ p ∈ replies, p.Sized) (fuel : Nat)
    (enough : replies.length ≤ fuel) :
    walkReplies fuel (replies.flatMap SubReply.encode) = some replies := by
  induction replies generalizing fuel with
  | nil => cases fuel <;> rfl
  | cons p rest ih =>
    obtain ⟨here, later⟩ := List.forall_mem_cons.mp sized
    cases fuel with
    | zero => simp at enough
    | succ fuel =>
      have again := ih later fuel (by simpa using enough)
      have length := SubReply.header_len here
      have size : 0 < FuseOutHeader.codec.size := by simp
      -- The header's length is that of the whole encoding, so the walk drops it exactly.
      have whole : p.header.len.toNat = p.encode.length := by rw [length, p.length_encode]
      have nonempty : p.encode ++ rest.flatMap SubReply.encode ≠ [] := by
        intro empty
        have none := congrArg List.length empty
        rw [List.length_append, p.length_encode, List.length_nil] at none
        omega
      have fits : ¬(p.header.len.toNat < FuseOutHeader.codec.size ∨
          (p.encode ++ rest.flatMap SubReply.encode).length < p.header.len.toNat) := by
        rw [List.length_append, whole, p.length_encode]
        omega
      have data : p.encode.drop FuseOutHeader.codec.size = p.data :=
        List.drop_left' (Codec.length_enc _ _)
      rw [List.flatMap_cons, walkReplies, if_neg nonempty]
      simp only [SubReply.dec_encode]
      rw [if_neg fits, whole, List.drop_left, List.take_left, again, data]
      rfl

/-! ### The sequential machine -/

/-- Sequential dispatch between two sub-requests: the replies and produced nodeids so
far, the calls of `dispatch` with the bytes they were given, and the callbacks. -/
structure Sequential (σ : Type) where
  replies : List SubReply
  produced : List UInt64
  dispatched : List (FuseInHeader × Bytes)
  calls : List Callback
  world : World σ

namespace Sequential

variable {σ : Type} (fs : Filesystem σ) (opts : SessionOptions) (r : Replier)

/-- Bytes of the reply area in use. -/
def used (s : Sequential σ) : Nat :=
  FuseCompoundOut.codec.size + (s.replies.flatMap SubReply.encode).length

/-- The `Replier` of the next sub-request: what is left behind its out-header. -/
def replier (s : Sequential σ) (unique : UInt64) : Replier :=
  { out := r.out + s.used + FuseOutHeader.codec.size
    cap := r.cap - s.used - FuseOutHeader.codec.size
    unique := unique }

/-- The reply a filled `Replier` stands for. -/
def reply (unique : UInt64) (sub : Replier) (w : World σ) : SubReply :=
  { error := sub.negErr
    unique := unique
    data := if sub.negErr ≠ 0 then [] else (w.mem .slot).read sub.out sub.len }

/-- Append a reply, writing its out-header. -/
def append (s : Sequential σ) (opcode : UInt32) (p : SubReply) (w : World σ) : Sequential σ :=
  { s with
    replies := s.replies ++ [p]
    produced := s.produced ++ [p.nodeid opcode]
    world := w.write .slot (r.out + s.used) (FuseOutHeader.codec.enc p.header) }

/-- One sub-request, whose encoding starts at `place`. -/
def step (s : Sequential σ) (place : Nat) (q : SubRequest) : Sequential σ :=
  let h := q.passed s.produced s.produced.length
  let sub := s.replier r h.unique
  let body : Span := ⟨place + frameHdrs, q.payload.length⟩
  if h.opcode = Opcode.compound.code then
    s.append r h.opcode (reply h.unique (replyError sub Errc.operationNotSupported) s.world)
      s.world
  else
    let done := run (World.step fs) (dispatch opts h body sub) s.world
    { s.append r h.opcode (reply h.unique done.1 done.2) done.2 with
      dispatched := s.dispatched ++ [(h, (s.world.mem .scratch).read body.base body.len)]
      calls := s.calls ++ callbacks (trace (World.step fs) (dispatch opts h body sub) s.world) }

/-- The sub-requests one after the other. -/
def exec : Nat → List SubRequest → Sequential σ → Sequential σ
  | _, [], s => s
  | place, q :: rest, s => exec (place + q.encode.length) rest (s.step fs opts r place q)

/-- Every sub-request finds room for its out-header. -/
def Fits : Nat → List SubRequest → Sequential σ → Prop
  | _, [], _ => True
  | place, q :: rest, s => s.used + FuseOutHeader.codec.size ≤ r.cap ∧
    Fits (place + q.encode.length) rest (s.step fs opts r place q)

/-- Before the first sub-request: a zeroed `fuse_compound_out`. -/
def start (w : World σ) : Sequential σ where
  replies := []
  produced := []
  dispatched := []
  calls := []
  world := w.write .slot r.out (FuseCompoundOut.codec.enc {})

/-! ### What the machine does, sub-request by sub-request -/

/-- The reply a sub-request gets: under its own unique, and a refusal if it is itself a
compound. -/
def Replies (q : SubRequest) (p : SubReply) : Prop :=
  p.unique = q.header.unique ∧
    (q.header.opcode = Opcode.compound.code →
      p.error = negErrno Errc.operationNotSupported ∧ p.data = [])

/-- The call of `dispatch` for the sub-request at position `i`, given the nodeids produced. -/
def dispatchOf (produced : List UInt64) (i : Nat) (q : SubRequest) :
    Option (FuseInHeader × Bytes) :=
  if q.header.opcode = Opcode.compound.code then none
  else some (q.passed produced i, q.payload)

theorem dispatchOf_append (produced later : List UInt64) (q : SubRequest) :
    dispatchOf (produced ++ later) produced.length q = dispatchOf produced produced.length q := by
  rw [dispatchOf, dispatchOf, q.passed_append]

theorem step_spec (s : Sequential σ) (place : Nat) (q : SubRequest)
    (laid : (s.world.mem .scratch).read (place + frameHdrs) q.payload.length = q.payload) :
    ∃ p, Replies q p ∧ (s.step fs opts r place q).replies = s.replies ++ [p] ∧
      (s.step fs opts r place q).produced = s.produced ++ [p.nodeid q.header.opcode] ∧
      (s.step fs opts r place q).dispatched =
        s.dispatched ++ (dispatchOf s.produced s.produced.length q).toList := by
  by_cases nested : (q.passed s.produced s.produced.length).opcode = Opcode.compound.code
  · simp only [step, if_pos nested, append]
    refine ⟨_, ⟨rfl, fun _ => ⟨rfl, ?_⟩⟩, rfl, rfl, ?_⟩
    · rfl
    · rw [dispatchOf, if_pos (show q.header.opcode = _ from nested), Option.toList_none,
        List.append_nil]
  · simp only [step, if_neg nested, append]
    refine ⟨_, ⟨rfl, fun is => absurd is nested⟩, rfl, rfl, ?_⟩
    rw [dispatchOf, if_neg (show q.header.opcode ≠ _ from nested), Option.toList_some, laid]

theorem step_scratch (s : Sequential σ) (place : Nat) (q : SubRequest) :
    (s.step fs opts r place q).world.mem .scratch = s.world.mem .scratch := by
  unfold step
  dsimp only
  split
  · exact World.write_mem_scratch ..
  next leaf =>
    rw [dispatch_leaf opts _ _ _ leaf]
    exact (World.write_mem_scratch ..).trans (dispatchLeaf_touches ..).scratch

/-- The payload of the first sub-request, and the place of the others. -/
theorem laid_cons {m : Memory} {place : Nat} {q : SubRequest} {rest : List SubRequest}
    (laid : m.read place ((q :: rest).flatMap SubRequest.encode).length =
      (q :: rest).flatMap SubRequest.encode) :
    m.read place q.encode.length = q.encode ∧
      m.read (place + q.encode.length) (rest.flatMap SubRequest.encode).length =
        rest.flatMap SubRequest.encode := by
  rw [List.flatMap_cons, List.length_append, Memory.read_add] at laid
  exact List.append_inj laid (Memory.length_read _ _ _)

theorem laid_payload {m : Memory} {place : Nat} {q : SubRequest}
    (laid : m.read place q.encode.length = q.encode) :
    m.read (place + frameHdrs) q.payload.length = q.payload := by
  have split : q.encode = (FuseCompoundReqIn.codec.enc q.req ++
      FuseInHeader.codec.enc q.header) ++ q.payload := by
    rw [SubRequest.encode, List.append_assoc]
  rw [q.length_encode, Memory.read_add, split] at laid
  exact (List.append_inj laid (by simp [frameHdrs])).2

/-- A run answers every sub-request in order, threads what was produced before, and
dispatches each one that is not a compound with exactly its payload. -/
theorem exec_spec (subs : List SubRequest) (place : Nat) (s : Sequential σ)
    (laid : (s.world.mem .scratch).read place (subs.flatMap SubRequest.encode).length =
      subs.flatMap SubRequest.encode) :
    ∃ news, List.Forall₂ Replies subs news ∧
      (exec fs opts r place subs s).replies = s.replies ++ news ∧
      (exec fs opts r place subs s).produced = s.produced ++
        List.zipWith (fun q p => p.nodeid q.header.opcode) subs news ∧
      (exec fs opts r place subs s).dispatched = s.dispatched ++
        (subs.zipIdx s.produced.length).filterMap fun e =>
          dispatchOf (exec fs opts r place subs s).produced e.2 e.1 := by
  induction subs generalizing place s with
  | nil => exact ⟨[], .nil, by simp [exec]⟩
  | cons q rest ih =>
    obtain ⟨here, later⟩ := laid_cons laid
    obtain ⟨p, replies, reply, produced, dispatched⟩ :=
      step_spec fs opts r s place q (laid_payload here)
    have kept := step_scratch fs opts r s place q
    obtain ⟨news, all, tail, prods, calls⟩ := ih (place + q.encode.length)
      (s.step fs opts r place q) (by rw [kept]; exact later)
    rw [reply] at tail
    rw [produced] at prods calls
    rw [dispatched] at calls
    refine ⟨p :: news, .cons replies all, ?_, ?_, ?_⟩
    · simpa [exec] using tail
    · simpa [exec] using prods
    · -- What this sub-request saw is the first part of the final list.
      have seen : dispatchOf (exec fs opts r (place + q.encode.length) rest
          (s.step fs opts r place q)).produced s.produced.length q =
            dispatchOf s.produced s.produced.length q := by
        rw [prods, List.append_assoc, dispatchOf_append]
      simp only [exec, List.zipIdx_cons, List.filterMap_cons, seen]
      rw [calls]
      cases dispatchOf s.produced s.produced.length q <;> simp

end Sequential

/-! ### A sub-request and one that depends on it -/

/-- LOOKUPX of the name `a`. -/
def lookupOfA : SubRequest where
  req := { depIndex := fuseCompoundNoDep }
  header := { len := 42, opcode := Opcode.lookupx.code, unique := 7, nodeid := 1 }
  payload := [97, 0]
  len_eq := by decide

/-- STATX of the node that the first sub-request produces. -/
def statOfProduced : SubRequest where
  req := { depIndex := 0 }
  header := { len := 64, opcode := Opcode.statx.code, unique := 8, nodeid := 1 }
  payload := List.replicate FuseStatxIn.codec.size 0
  len_eq := by decide

end Fex
