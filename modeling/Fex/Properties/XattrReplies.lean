import Fex.Sequential

/-!
# Replies with extended attributes

## Main result

`xattr_complete_iff`: a GETXATTR or LISTXATTR with `size > 0` is answered with an error or
with the whole value, alone and as any frame of a compound, just when its reply area is not
empty, or there is nothing to lose: no value, or an empty one.

## Proof strategy

Both handlers lend the daemon `min(size, cap)` bytes and report how many of them it used
(`run_serve_wanted`). Unless that span is empty, the contract makes the answer the value or
ERANGE; an empty span is a size query to the daemon, and its answer is cut to zero bytes.
-/
namespace Fex

open Foundation Program

/-! ### The documented contract -/

/-- How a callback answers for the value it keeps: it reports the size if the span is empty,
stores the value if the span has room, and fails with ERANGE otherwise. Without a value it
fails. -/
def ServesValue (answer : (span : Bytes) → Filled span) : Option Bytes → Prop
  | none => ∀ span, ∃ e, e ≠ 0 ∧ (answer span).1 = .error e
  | some v =>
    (answer []).1 = .ok v.length ∧
    (∀ span, v.length ≤ span.length →
      (answer span).1 = .ok v.length ∧ (answer span).2.1.take v.length = v) ∧
    ∀ span, span ≠ [] → span.length < v.length → (answer span).1 = .error Errc.resultOutOfRange

/-- The attributes behind the two callbacks, in each state of the daemon. -/
structure Xattrs (σ : Type) where
  get : Context → NodeId → Bytes → σ → Option Bytes
  list : Context → NodeId → σ → Option Bytes

/-- The daemon follows the contract of `getxattr` and `listxattr`. -/
structure Filesystem.Keeps {σ : Type} (fs : Filesystem σ) (x : Xattrs σ) : Prop where
  get : ∀ ctx nodeid name s,
    ServesValue (fun span => (fs.getxattr ctx nodeid name span s).1) (x.get ctx nodeid name s)
  list : ∀ ctx nodeid s,
    ServesValue (fun span => (fs.listxattr ctx nodeid span s).1) (x.list ctx nodeid s)

/-- The value a request asks for; `none` for a size query and for other requests. -/
def Request.wanted {σ : Type} (x : Xattrs σ) (h : FuseInHeader) (s : σ) :
    Request → Option (Option Bytes)
  | .getxattr (req, name) =>
    if req.size = 0 then none else some (x.get (makeCtx h) h.nodeid name s)
  | .listxattr size => if size = 0 then none else some (x.list (makeCtx h) h.nodeid s)
  | _ => none

/-- An error, or the whole value. -/
def CarriesValue {σ : Type} (r : Replier) (value : Option Bytes) (done : Replier × World σ) :
    Prop :=
  done.1.negErr ≠ 0 ∨ ∃ v, value = some v ∧ done.1.len = v.length ∧
    (done.2.mem .slot).read r.out done.1.len = v

/-! ### One request -/

section Leaf

variable {σ : Type} (fs : Filesystem σ) (opts : SessionOptions) (h : FuseInHeader) (r : Replier)
  (w : World σ)

/-- What becomes of the answer to a span of `want` bytes. -/
theorem replyFilled_carries_iff {answer : (span : Bytes) → Filled span} {value : Option Bytes}
    (serves : ServesValue answer value) {want : Nat} {span : Bytes} (lent : span.length = want) :
    CarriesValue r value (run (World.step fs) (replyFilled r want (answer span).1)
        (w.write .slot r.out (answer span).2.1)) ↔
      want ≠ 0 ∨ value = none ∨ value = some [] := by
  have failed {e : Errc} (nonzero : e ≠ 0) (is : (answer span).1 = .error e) :
      CarriesValue r value (run (World.step fs) (replyFilled r want (answer span).1)
        (w.write .slot r.out (answer span).2.1)) := by
    rw [is]
    exact .inl fun zero => nonzero (negErrno_eq_zero.mp zero)
  cases value with
  | none =>
    obtain ⟨e, nonzero, is⟩ := serves span
    exact iff_of_true (failed nonzero is) (.inr (.inl rfl))
  | some v =>
    obtain ⟨query, room, short⟩ := serves
    by_cases empty : want = 0
    · -- The daemon takes the empty span for a size query.
      obtain rfl : span = [] := List.eq_nil_of_length_eq_zero (lent.trans empty)
      subst empty
      rw [query]
      constructor
      · rintro (error | ⟨v', same, length, -⟩)
        · exact absurd rfl error
        · cases same
          have zero : v.length = 0 := length.symm.trans (Nat.min_zero _)
          exact .inr (.inr (congrArg some (List.eq_nil_of_length_eq_zero zero)))
      · rintro (nonempty | none | nothing)
        · exact absurd rfl nonempty
        · cases none
        · cases nothing
          exact .inr ⟨[], rfl, rfl, rfl⟩
    · refine iff_of_true ?_ (.inl empty)
      by_cases fits : v.length ≤ span.length
      · -- All of it was written, and `min` does not cut it.
        obtain ⟨is, stored⟩ := room span fits
        rw [is]
        have whole : min v.length want = v.length := Nat.min_eq_left (lent ▸ fits)
        have long : v.length ≤ (answer span).2.1.length := by
          rw [(answer span).2.2]
          exact fits
        refine .inr ⟨v, rfl, whole, ?_⟩
        show ((w.write .slot r.out (answer span).2.1).mem .slot).read r.out (min v.length want) = v
        rw [whole, World.write_mem_same, ← Memory.take_read _ _ _ _ long, Memory.read_write_same,
          stored]
      · -- ERANGE, as documented.
        refine failed (by decide) (short span ?_ (Nat.lt_of_not_le fits))
        rintro rfl
        exact empty lent.symm

/-- Serving such a request is lending a span and reporting on it. -/
theorem run_serve_wanted {x : Xattrs σ} (keeps : fs.Keeps x) {q : Request} {value : Option Bytes}
    (wanted : q.wanted x h w.fs = some value) :
    ∃ (answer : (span : Bytes) → Filled span) (want : Nat) (span : Bytes) (s : σ),
      ServesValue answer value ∧ span.length = want ∧ (want ≠ 0 ↔ r.cap ≠ 0) ∧
        run (World.step fs) (serve opts h r q) w =
          run (World.step fs) (replyFilled r want (answer span).1)
            (({ w with fs := s }).write .slot r.out (answer span).2.1) := by
  have positive {size : UInt32} (asked : size ≠ 0) : min size.toNat r.cap ≠ 0 ↔ r.cap ≠ 0 := by
    have size : size.toNat ≠ 0 := fun zero => asked (UInt32.toNat_inj.mp zero)
    omega
  cases q with
  | getxattr args =>
    obtain ⟨req, name⟩ := args
    obtain ⟨query, same⟩ := Option.ite_none_left_eq_some.mp wanted
    obtain rfl := Option.some.inj same
    let span := (w.mem .slot).read r.out (min req.size.toNat r.cap)
    refine ⟨fun span => (fs.getxattr (makeCtx h) h.nodeid name span w.fs).1, _, span,
      (fs.getxattr (makeCtx h) h.nodeid name span w.fs).2, keeps.get .., Memory.length_read ..,
      positive query, ?_⟩
    simp only [serve, serveGetxattr, if_neg query]
    rfl
  | listxattr size =>
    obtain ⟨query, same⟩ := Option.ite_none_left_eq_some.mp wanted
    obtain rfl := Option.some.inj same
    let span := (w.mem .slot).read r.out (min size.toNat r.cap)
    refine ⟨fun span => (fs.listxattr (makeCtx h) h.nodeid span w.fs).1, _, span,
      (fs.listxattr (makeCtx h) h.nodeid span w.fs).2, keeps.list .., Memory.length_read ..,
      positive query, ?_⟩
    simp only [serve, serveListxattr, if_neg query]
    rfl
  | _ => cases wanted

theorem dispatchLeaf_carries_iff {x : Xattrs σ} (keeps : fs.Keeps x) {body : Span} {q : Request}
    {value : Option Bytes} (decoded : decodeAt (w.mem .scratch) h body = .accept q)
    (wanted : q.wanted x h w.fs = some value) :
    CarriesValue r value (run (World.step fs) (dispatchLeaf opts h body r) w) ↔
      r.cap ≠ 0 ∨ value = none ∨ value = some [] := by
  obtain ⟨answer, want, span, s, serves, lent, positive, ran⟩ :=
    run_serve_wanted fs opts h r w keeps wanted
  rw [run_dispatchLeaf, decoded, respond, ran, replyFilled_carries_iff fs r _ serves lent,
    positive]

end Leaf

/-- Attribute replies are complete or an error just when there is room for any reply at all,
or nothing to reply with. -/
theorem xattr_complete_iff {σ : Type} (fs : Filesystem σ) (x : Xattrs σ) (keeps : fs.Keeps x)
    (opts : SessionOptions) :
    (∀ h body r w q value, decodeAt (w.mem .scratch) h body = .accept q →
      q.wanted x h w.fs = some value →
        (CarriesValue r value (run (World.step fs) (dispatch opts h body r) w) ↔
          r.cap ≠ 0 ∨ value = none ∨ value = some [])) ∧
    ∀ h body r w, Comprises fs opts r h body w ∧
      ∀ t ∈ (compoundProgress fs (dispatch opts) r body w).rounds, ∀ q value,
        decodeAt (w.mem .scratch) t.header t.frame.payload = .accept q →
        q.wanted x t.header t.start.world.fs = some value →
          (CarriesValue (t.replier r) value (t.result fs (dispatch opts) r) ↔
            t.start.outP + FuseOutHeader.codec.size < r.cap ∨ value = none ∨
              value = some []) := by
  refine ⟨?_, ?_⟩
  · intro h body r w q value decoded wanted
    rw [dispatch_leaf opts h body r (decodeAt_leaf decoded)]
    exact dispatchLeaf_carries_iff fs opts h r w keeps decoded wanted
  · intro h body r w
    refine ⟨handleCompound_comprises fs opts r h body w, ?_⟩
    intro t round q value decoded wanted
    rw [compoundProgress_dispatch] at round
    rw [← compoundProgress_scratch opts r body w round] at decoded
    -- The reply area of a round is what its out-header leaves.
    have room : (t.replier r).cap ≠ 0 ↔ t.start.outP + FuseOutHeader.codec.size < r.cap := by
      simp only [Round.replier, carve]
      omega
    rw [Round.result_dispatch, Round.result, Round.handler_leaf, ← room]
    exact dispatchLeaf_carries_iff fs opts t.header _ _ keeps decoded wanted

/-! ### A value that is lost -/

/-- The documented answer for the value `v`. -/
def answerFor (v span : Bytes) : Filled span :=
  if span = [] then (.ok v.length, .of span)
  else if fits : v.length ≤ span.length then
    (.ok v.length, ⟨v ++ span.drop v.length, by simp; omega⟩)
  else (.error Errc.resultOutOfRange, .of span)

theorem answerFor_serves (v : Bytes) : ServesValue (answerFor v) (some v) := by
  refine ⟨rfl, ?_, ?_⟩
  · intro span fits
    by_cases empty : span = []
    · subst empty
      obtain rfl : v = [] := List.eq_nil_of_length_eq_zero (Nat.le_zero.mp fits)
      exact ⟨rfl, rfl⟩
    · simp [answerFor, empty, fits]
  · intro span nonempty short
    simp [answerFor, nonempty, Nat.not_le.mpr short]

/-- A daemon all of whose attributes, and lists of them, are `v`. -/
def keeperOf (v : Bytes) : Filesystem Unit :=
  { Filesystem.failing Errc.functionNotSupported with
    getxattr := fun _ _ _ span s => (answerFor v span, s)
    listxattr := fun _ _ span s => (answerFor v span, s) }

def allXattrs (v : Bytes) : Xattrs Unit where
  get _ _ _ _ := some v
  list _ _ _ := some v

theorem keeperOf_keeps (v : Bytes) : (keeperOf v).Keeps (allXattrs v) :=
  ⟨fun _ _ _ _ => answerFor_serves v, fun _ _ _ => answerFor_serves v⟩

/-- GETXATTR of `a`, at most one byte. -/
def getxattrRequest : SubRequest where
  req := { depIndex := fuseCompoundNoDep }
  header := { len := 50, opcode := Opcode.getxattr.code, nodeid := 1 }
  payload := FuseGetxattrIn.codec.enc { size := 1 } ++ [97, 0]
  len_eq := rfl

/-- A compound of that one sub-request. -/
def attrCompound : World Unit where
  mem _ := Memory.write (fun _ => 0) FuseCompoundIn.codec.size getxattrRequest.encode
  initDone := true
  fs := ()

theorem attrCompound_decoded :
    decodeAt (attrCompound.mem .scratch) getxattrRequest.header ⟨60, 10⟩ =
      .accept (.getxattr ({ size := 1 }, [97])) := rfl

/-- With a reply area of 4096 bytes the byte arrives. -/
theorem xattr_complete_iff_alone :
    CarriesValue { cap := 4096 } (some [118])
      (run (World.step (keeperOf [118]))
        (dispatch {} getxattrRequest.header ⟨60, 10⟩ { cap := 4096 }) attrCompound) :=
  ((xattr_complete_iff (keeperOf [118]) (allXattrs [118]) (keeperOf_keeps _) {}).1
    getxattrRequest.header ⟨60, 10⟩ { cap := 4096 } attrCompound _ _
    attrCompound_decoded rfl).mpr (.inl (by decide))

/-- The frame runs with exactly its out-header left in the reply area. -/
def attrRound : Round Unit :=
  ⟨getxattrRequest.frame 16, compoundStart { cap := 32 } attrCompound⟩

theorem attrCompound_rounds :
    (compoundProgress (keeperOf [118]) (dispatch {}) { cap := 32 } ⟨0, 70⟩ attrCompound).rounds =
      [attrRound] := by
  have frames : compoundFrames (attrCompound.mem .scratch) ⟨0, 70⟩ =
      ([getxattrRequest.frame 16], true) := rfl
  rw [compoundProgress_dispatch, compoundProgress, frames]
  exact runFrames_rounds_cons _ _ _ (by decide)

/-- The sub-reply is a success without the byte. -/
theorem getxattr_loses_value :
    attrRound ∈ (compoundProgress (keeperOf [118]) (dispatch {}) { cap := 32 } ⟨0, 70⟩
        attrCompound).rounds ∧
      (attrRound.result (keeperOf [118]) (dispatch {}) { cap := 32 }).1.negErr = 0 ∧
      (attrRound.result (keeperOf [118]) (dispatch {}) { cap := 32 }).1.len = 0 ∧
      ¬CarriesValue (attrRound.replier { cap := 32 }) (some [118])
        (attrRound.result (keeperOf [118]) (dispatch {}) { cap := 32 }) := by
  have scratch : attrRound.start.world.mem .scratch = attrCompound.mem .scratch :=
    World.write_mem_scratch ..
  have decoded : decodeAt (attrRound.start.world.mem .scratch) attrRound.header ⟨60, 10⟩ =
      .accept (.getxattr ({ size := 1 }, [97])) := by
    rw [scratch]
    exact attrCompound_decoded
  rw [Round.result_dispatch, Round.result, Round.handler_leaf]
  refine ⟨?_, ?_, ?_, ?_⟩
  · rw [attrCompound_rounds]
    exact List.mem_singleton_self _
  · rw [run_dispatchLeaf]
    exact congrArg (fun d => (run (World.step (keeperOf [118])) (respond {} attrRound.header
      (attrRound.replier { cap := 32 }) d) attrRound.start.world).1.negErr) decoded
  · rw [run_dispatchLeaf]
    exact congrArg (fun d => (run (World.step (keeperOf [118])) (respond {} attrRound.header
      (attrRound.replier { cap := 32 }) d) attrRound.start.world).1.len) decoded
  · intro carries
    have room := (dispatchLeaf_carries_iff (keeperOf [118]) {} attrRound.header
      (attrRound.replier { cap := 32 }) attrRound.start.world (keeperOf_keeps _) decoded
      rfl).mp carries
    exact absurd room (by decide)

end Fex
