import Fex.Properties.ParseBounds
import Fex.Properties.SlotTransport

/-!
# No stale data crosses requests

## Main result

`handleOne_noninterference`: two slots that hold the same request, but differ in every
byte the kernel did not write for it, lead to the same callbacks and the same reply,
byte for byte, under any daemon that does not look into the spans it is given to fill.

## Proof strategy

Decoding depends on the body alone, so both runs serve the same request. Serving
claims only bytes it has stored, or that the daemon reported as written: one rule for
each way to build a reply shows that the claimed bytes are alike (`Alike`). A round of a
compound keeps the reply so far alike (`Round.next_twin`), and an induction over the
frames carries this through the loop (`runFrames_twin`).
-/
namespace Fex

open Foundation Program

/-! ### Daemons that do not read their output spans -/

/-- The callback fills its span without reading it: its verdict and the daemon's next
state do not depend on what the span held, and of a non-empty span it reports only
bytes that exist and that it has written. -/
def FillsBlindly {σ : Type} (fill : (span : Bytes) → σ → Filled span × σ) : Prop :=
  ∀ span span' s, span.length = span'.length →
    (fill span s).2 = (fill span' s).2 ∧ (fill span s).1.1 = (fill span' s).1.1 ∧
      ∀ n, (fill span s).1.1 = .ok n → span ≠ [] → n ≤ span.length ∧
        (fill span s).1.2.1.take n = (fill span' s).1.2.1.take n

/-- No callback reads its output span. READDIR sees its buffer through `add` only. -/
structure Filesystem.Oblivious {σ : Type} (fs : Filesystem σ) : Prop where
  read : ∀ ctx nodeid fh offset, FillsBlindly (fs.read ctx nodeid fh offset)
  getxattr : ∀ ctx nodeid name, FillsBlindly (fs.getxattr ctx nodeid name)
  listxattr : ∀ ctx nodeid, FillsBlindly (fs.listxattr ctx nodeid)

/-- The callback with its output span zeroed: what it says about the request. -/
def Callback.blank : Callback → Callback
  | .read ctx nodeid fh offset span =>
    .read ctx nodeid fh offset (List.replicate span.length 0)
  | .readdir ctx nodeid fh offset writer =>
    .readdir ctx nodeid fh offset { writer with buf := List.replicate writer.buf.length 0 }
  | .getxattr ctx nodeid name span => .getxattr ctx nodeid name (List.replicate span.length 0)
  | .listxattr ctx nodeid span => .listxattr ctx nodeid (List.replicate span.length 0)
  | cb => cb

/-- The contents of the lent span are all that is blanked. -/
theorem Request.callback_blank (opts : SessionOptions) (h : FuseInHeader) (q : Request)
    {span span' : Bytes} (length : span.length = span'.length) :
    (q.callback opts h span).blank = (q.callback opts h span').blank := by
  cases q with
  | read | readdir | getxattr | listxattr =>
    simp only [Request.callback, Callback.blank, length]
  | unlink isRmdir name => cases isRmdir <;> rfl
  | _ => rfl

/-! ### Directory writers over different buffers -/

/-- Two writers that have packed the same bytes. -/
structure DirentWriter.Twin (v v' : DirentWriter) : Prop where
  pos : v.pos = v'.pos
  length : v.buf.length = v'.buf.length
  packed : v.buf.take v.pos = v'.buf.take v.pos
  valid : v.Valid

theorem DirentWriter.Twin.add {v v' : DirentWriter} (twin : v.Twin v') (d : Dirent) :
    (v.add d).1 = (v'.add d).1 ∧ (v.add d).2.Twin (v'.add d).2 := by
  have valid := v.add_valid d twin.valid
  have inside : v.pos ≤ v.buf.length := twin.valid
  have length := twin.length
  unfold DirentWriter.add at valid ⊢
  rw [← twin.pos, ← length]
  split
  · exact ⟨rfl, twin⟩
  next fits =>
    rw [if_neg fits] at valid
    refine ⟨rfl, rfl, ?_, ?_, valid⟩
    · simp only [List.length_append, List.length_take, List.length_drop]
      omega
    · -- Up to the new cursor both buffers hold the old bytes and the record.
      have head : (v.buf.take v.pos ++ DirentWriter.record d).length =
          v.pos + (DirentWriter.record d).length := by
        rw [List.length_append, List.length_take_of_le inside]
      have head' : (v'.buf.take v.pos ++ DirentWriter.record d).length =
          v.pos + (DirentWriter.record d).length := by
        rw [← twin.packed, head]
      dsimp only
      rw [List.take_left' head, List.take_left' head', twin.packed]

/-- A whole exchange gets the same verdicts over both buffers. -/
theorem DirentScript.fill_twin {α : Type} (script : DirentScript α) {v v' : DirentWriter}
    (twin : v.Twin v') :
    (script.fill v).1 = (script.fill v').1 ∧ (script.fill v).2.Twin (script.fill v').2 := by
  unfold fill
  induction script generalizing v v' with
  | done value => exact ⟨rfl, twin⟩
  | request d next ih =>
    obtain ⟨verdict, after⟩ := twin.add d
    simp only [Program.run]
    rw [← verdict]
    exact ih _ after

/-! ### Serving a request in two worlds -/

/-- The daemon is in the same state; memory may differ. -/
structure SameDaemon {σ : Type} (w w' : World σ) : Prop where
  fs : w.fs = w'.fs
  initDone : w.initDone = w'.initDone

theorem SameDaemon.write {σ : Type} {w w' : World σ} (same : SameDaemon w w') (blk : Block)
    (addr addr' : Nat) (bytes bytes' : Bytes) :
    SameDaemon (w.write blk addr bytes) (w'.write blk addr' bytes') :=
  ⟨same.fs, same.initDone⟩

/-- Two results of filling `r`: the same `Replier`, the same daemon, and the same bytes
as far as the `Replier` claims any. -/
structure Alike {σ : Type} (r : Replier) (a b : Replier × World σ) : Prop
    extends SameDaemon a.2 b.2 where
  replier : a.1 = b.1
  reply : (a.2.mem .slot).read r.out a.1.len = (b.2.mem .slot).read r.out a.1.len

/-- Whatever the two memories hold, the program fills `r` alike. -/
def Twin {σ : Type} (fs : Filesystem σ) (r : Replier) (p : Handler Replier) : Prop :=
  ∀ w w' : World σ, SameDaemon w w' →
    Alike r (run (World.step fs) p w) (run (World.step fs) p w')

section Serving

variable {σ : Type} {fs : Filesystem σ} {r : Replier}

/-- A reply without bytes. -/
theorem twin_pure {sub : Replier} (empty : sub.len = 0) : Twin fs r (pure sub) := by
  intro w w' same
  refine ⟨same, rfl, ?_⟩
  simp only [run_pure, empty, Memory.read]

theorem twin_replyPayload (p : Bytes) : Twin fs r (replyPayload r p) := by
  unfold replyPayload
  split
  · exact twin_pure rfl
  · cases p with
    | nil => exact twin_pure rfl
    | cons b bs =>
      intro w w' same
      refine ⟨same.write .., rfl, ?_⟩
      -- Both slots now hold the payload at the start of the reply area.
      have stored (v : World σ) : ((v.write .slot (r.span.base + 0) (b :: bs)).mem .slot).read r.out
          (b :: bs).length = b :: bs := by
        rw [World.write_mem_same]
        exact Memory.read_write_same ..
      exact (stored w).trans (stored w').symm

theorem twin_replyPod {α : Type} (codec : Codec α) (pod : α) :
    Twin fs r (replyPod codec r pod) :=
  twin_replyPayload (codec.enc pod)

theorem twin_withAnswer {α : Type} (rv : Except Errc α) {pack : α → Handler Replier}
    (packs : ∀ a, Twin fs r (pack a)) : Twin fs r (withAnswer r rv pack) := by
  cases rv with
  | error e => exact twin_pure rfl
  | ok a => exact packs a

theorem twin_replyStatus (rv : Except Errc Unit) : Twin fs r (replyStatus r rv) :=
  twin_withAnswer rv fun _ => twin_pure rfl

/-- A callback without an output span is answered alike. -/
theorem twin_call {cb : Callback} {rest : cb.Answer → Handler Replier}
    (twins : ∀ answer, Twin fs r (rest answer)) : Twin fs r (call cb >>= rest) := by
  intro w w' same
  simp only [run_bind, run_call]
  rw [← same.fs]
  exact twins _ _ _ ⟨rfl, same.initDone⟩

/-- Lending `want` bytes of the reply area and storing them back: the bytes claimed
afterwards are those of the returned span. -/
theorem twin_fill {want : Nat} (cb : Bytes → Callback)
    (filled : (span : Bytes) → (cb span).Answer → Bytes)
    (sub : (span : Bytes) → (cb span).Answer → Replier)
    (agree : ∀ span span' s, span.length = want → span'.length = want →
      let a := fs.perform (cb span) s
      let a' := fs.perform (cb span') s
      a.2 = a'.2 ∧ sub span a.1 = sub span' a'.1 ∧
        (sub span a.1).len ≤ (filled span a.1).length ∧
        (sub span a.1).len ≤ (filled span' a'.1).length ∧
        (filled span a.1).take (sub span a.1).len =
          (filled span' a'.1).take (sub span a.1).len) :
    Twin fs r (do
      let span ← load .slot r.span 0 want
      let answer ← call (cb span.1)
      store .slot r.span 0 (filled span.1 answer)
      pure (sub span.1 answer)) := by
  intro w w' same
  simp only [run_bind, run_load, run_call, run_store, run_pure]
  rw [← same.fs]
  obtain ⟨daemon, replier, fits, fits', bytes⟩ := agree
    ((w.mem .slot).read (r.span.base + 0) want) ((w'.mem .slot).read (r.span.base + 0) want) w.fs
    (Memory.length_read ..) (Memory.length_read ..)
  refine ⟨⟨daemon, same.initDone⟩, replier, ?_⟩
  -- What is claimed is the head of what has just been stored.
  have claimed (v : World σ) (bs : Bytes) (n : Nat) (inside : n ≤ bs.length) :
      ((v.write .slot (r.span.base + 0) bs).mem .slot).read r.out n = bs.take n := by
    rw [World.write_mem_same, ← Memory.take_read _ _ bs.length n inside]
    exact congrArg (List.take n) (Memory.read_write_same ..)
  exact (claimed _ _ _ fits).trans (bytes.trans (claimed _ _ _ fits').symm)

/-- `replyFilled` only decides what is claimed. -/
theorem replyFilled_eq (want : Nat) (rv : Except Errc Nat) :
    replyFilled r want rv = pure (match rv with
      | .error e => replyError r e
      | .ok n => { r with negErr := 0, len := min n want }) := by
  cases rv <;> rfl

/-- READ, GETXATTR and LISTXATTR with a blind daemon. -/
theorem twin_filled {want : Nat} (cb : Bytes → Callback)
    (fill : (span : Bytes) → σ → Filled span × σ) (blind : FillsBlindly fill)
    (verdict : (span : Bytes) → (cb span).Answer → Except Errc Nat)
    (filled : (span : Bytes) → (cb span).Answer → Bytes)
    (performs : ∀ span s, (fs.perform (cb span) s).2 = (fill span s).2 ∧
      verdict span (fs.perform (cb span) s).1 = (fill span s).1.1 ∧
      filled span (fs.perform (cb span) s).1 = (fill span s).1.2.1) :
    Twin fs r (do
      let span ← load .slot r.span 0 want
      let answer ← call (cb span.1)
      store .slot r.span 0 (filled span.1 answer)
      replyFilled r want (verdict span.1 answer)) := by
  simp only [replyFilled_eq]
  refine twin_fill cb filled (fun span answer => match verdict span answer with
    | .error e => replyError r e
    | .ok n => { r with negErr := 0, len := min n want }) ?_
  intro span span' s length length'
  obtain ⟨after, rules, writes⟩ := performs span s
  obtain ⟨after', rules', writes'⟩ := performs span' s
  obtain ⟨daemon, same, reported⟩ := blind span span' s (length.trans length'.symm)
  have size : (fill span s).1.2.1.length = want := (fill span s).1.2.2.trans length
  have size' : (fill span' s).1.2.1.length = want := (fill span' s).1.2.2.trans length'
  simp only [after, after', rules, rules', writes, writes', ← same, size, size']
  refine ⟨daemon, trivial, ?_⟩
  cases rv : (fill span s).1.1 with
  | error e => exact ⟨Nat.zero_le _, Nat.zero_le _, rfl⟩
  | ok n =>
    refine ⟨Nat.min_le_right _ _, Nat.min_le_right _ _, ?_⟩
    by_cases empty : span = []
    · -- An empty span claims nothing, whatever number was reported for it.
      have none : want = 0 := by rw [← length, empty, List.length_nil]
      simp only [none, Nat.min_zero, List.take_zero]
    · obtain ⟨fits, written⟩ := reported n rv empty
      simp only [Nat.min_eq_left (length ▸ fits), written]

theorem twin_serveReaddir (h : FuseInHeader) (req : FuseReadIn) :
    Twin fs r (serveReaddir h r req) := by
  have packs (w : DirentWriter) (rv : Except Errc Unit) :
      (withAnswer r rv fun _ => return { r with negErr := 0, len := w.pos }) =
        (pure (match rv with
          | .error e => replyError r e
          | .ok _ => { r with negErr := 0, len := w.pos }) : Handler Replier) := by
    cases rv <;> rfl
  simp only [serveReaddir, packs]
  refine twin_fill (fun span => .readdir (makeCtx h) h.nodeid req.fh req.offset { buf := span })
    (fun _ answer => answer.2.buf) (fun _ answer => match answer.1 with
      | .error e => replyError r e
      | .ok _ => { r with negErr := 0, len := answer.2.pos }) ?_
  intro span span' s length length'
  have start : DirentWriter.Twin { buf := span } { buf := span' } :=
    ⟨rfl, length.trans length'.symm, rfl, Nat.zero_le _⟩
  obtain ⟨verdict, twin⟩ := (fs.readdir (makeCtx h) h.nodeid req.fh req.offset s).fill_twin start
  have inside : (DirentScript.fill _ _).2.pos ≤ (DirentScript.fill _ _).2.buf.length := twin.valid
  simp only [Filesystem.perform]
  rw [← verdict, ← twin.pos, ← twin.length]
  refine ⟨rfl, rfl, ?_⟩
  split
  · exact ⟨Nat.zero_le _, Nat.zero_le _, rfl⟩
  · exact ⟨inside, inside, twin.packed⟩

/-- Every request is served alike by a daemon that does not read its output spans. -/
theorem twin_serve (oblivious : fs.Oblivious) (opts : SessionOptions) (h : FuseInHeader)
    (q : Request) : Twin fs r (serve opts h r q) := by
  cases q with
  | init req =>
    refine twin_call fun answer => twin_withAnswer answer fun info => ?_
    split
    · exact twin_replyPod _ _
    · intro w w' same
      exact twin_replyPod _ _ _ _ ⟨same.fs, rfl⟩
  | read req =>
    exact twin_filled (fun span => .read (makeCtx h) h.nodeid req.fh req.offset span) _
      (oblivious.read _ _ _ _) (fun _ answer => answer.1) (fun _ answer => answer.2.1)
      fun _ _ => ⟨rfl, rfl, rfl⟩
  | readdir req => exact twin_serveReaddir h req
  | getxattr args =>
    obtain ⟨req, name⟩ := args
    unfold serve serveGetxattr
    dsimp only
    split
    · exact twin_call fun answer => twin_withAnswer answer.1 fun _ => twin_replyPod _ _
    · exact twin_filled (fun span => .getxattr (makeCtx h) h.nodeid name span) _
        (oblivious.getxattr _ _ _) (fun _ answer => answer.1) (fun _ answer => answer.2.1)
        fun _ _ => ⟨rfl, rfl, rfl⟩
  | listxattr size =>
    unfold serve serveListxattr
    dsimp only
    split
    · exact twin_call fun answer => twin_withAnswer answer.1 fun _ => twin_replyPod _ _
    · exact twin_filled (fun span => .listxattr (makeCtx h) h.nodeid span) _
        (oblivious.listxattr _ _) (fun _ answer => answer.1) (fun _ answer => answer.2.1)
        fun _ _ => ⟨rfl, rfl, rfl⟩
  | forget | batchForget => exact twin_call fun _ => twin_pure rfl
  | readlink => exact twin_call fun answer => twin_withAnswer answer twin_replyPayload
  | unlink isRmdir name =>
    cases isRmdir with
    | true => exact twin_call fun answer => twin_replyStatus answer
    | false => exact twin_call fun answer => twin_replyStatus answer
  | lookupRoot | lookupx | statx | setstatx | mkobjx | openFile | write | statfs | opendir =>
    exact twin_call fun answer => twin_withAnswer answer fun _ => twin_replyPod _ _
  | rename2 | link | release | fallocate | releasedir | setxattr | removexattr =>
    exact twin_call fun answer => twin_replyStatus answer

end Serving

/-! ### Leaf dispatch -/

/-- The request bytes the two worlds share. -/
def SameBody {σ : Type} (body : Span) (w w' : World σ) : Prop :=
  ∀ a, body.base ≤ a → a < body.base + body.len → w.mem .scratch a = w'.mem .scratch a

section Leaf

variable {σ : Type} {fs : Filesystem σ} (opts : SessionOptions) {h : FuseInHeader} {body : Span}
  {w w' : World σ}

/-- The same bytes decode to the same request, unless REMOVEXATTR leaves the body. -/
theorem SameBody.decodeAt (same : SameBody body w w') (fit : ¬ExtensionOverrun h body) :
    decodeAt (w.mem .scratch) h body = decodeAt (w'.mem .scratch) h body := by
  have limit : readLimit h body = body.len := if_neg fit
  refine decodeAt_congr h body ?_
  rw [limit]
  exact same

theorem dispatchLeaf_twin (oblivious : fs.Oblivious) (r : Replier) (daemon : SameDaemon w w')
    (same : SameBody body w w') (fit : ¬ExtensionOverrun h body) :
    Alike r (run (World.step fs) (dispatchLeaf opts h body r) w)
      (run (World.step fs) (dispatchLeaf opts h body r) w') := by
  rw [run_dispatchLeaf, run_dispatchLeaf, ← same.decodeAt fit]
  cases decodeAt (w.mem .scratch) h body with
  | accept q => exact twin_serve oblivious opts h q w w' daemon
  | reject e => exact twin_pure rfl w w' daemon
  | ignore => exact twin_pure rfl w w' daemon

theorem callbacks_dispatchLeaf_blank (r : Replier) (same : SameBody body w w')
    (fit : ¬ExtensionOverrun h body) :
    (callbacks (trace (World.step fs) (dispatchLeaf opts h body r) w)).map Callback.blank =
      (callbacks (trace (World.step fs) (dispatchLeaf opts h body r) w')).map Callback.blank := by
  rw [callbacks_dispatchLeaf, callbacks_dispatchLeaf, ← same.decodeAt fit]
  cases decodeAt (w.mem .scratch) h body with
  | accept q =>
    have length : ((w.mem .slot).read r.out (q.lent r.cap)).length =
        ((w'.mem .slot).read r.out (q.lent r.cap)).length := by
      rw [Memory.length_read, Memory.length_read]
    simp only [Decoded.callbacks, List.map_cons, List.map_nil, q.callback_blank opts h length]
  | reject e => rfl
  | ignore => rfl

end Leaf

/-! ### Rounds of a compound -/

/-- Two cursors over the same body whose replies so far are the same. -/
structure Cursor.Twin {σ : Type} (body : Span) (r : Replier) (c c' : Cursor σ) : Prop
    extends SameDaemon c.world c'.world where
  outP : c.outP = c'.outP
  produced : c.produced = c'.produced
  body : SameBody body c.world c'.world
  reply : (c.world.mem .slot).read r.out c.outP = (c'.world.mem .slot).read r.out c.outP

section Rounds

variable {σ : Type} {fs : Filesystem σ} (oblivious : fs.Oblivious) (opts : SessionOptions)
  (r : Replier) {body : Span} {f : Frame} {c c' : Cursor σ}

/-- The frame lies in the body and does not read behind its payload. -/
structure Frame.Plain (body : Span) (f : Frame) : Prop where
  within : f.payload.Within body
  fit : ¬ExtensionOverrun f.header f.payload

theorem Frame.Plain.sameBody {w w' : World σ} (plain : f.Plain body) (same : SameBody body w w') :
    SameBody f.payload w w' := by
  obtain ⟨lower, upper⟩ := plain.within
  exact fun a first last => same a (by omega) (by omega)

theorem Frame.Plain.header_fit (plain : f.Plain body) (c : Cursor σ) :
    ¬ExtensionOverrun (Round.header ⟨f, c⟩) f.payload :=
  fun overrun => plain.fit ((Round.overrun_header ⟨f, c⟩).mp overrun)

theorem Round.header_twin (twin : c.Twin body r c') :
    Round.header ⟨f, c⟩ = Round.header ⟨f, c'⟩ := by
  simp only [Round.header, twin.produced]

theorem Round.replier_twin (twin : c.Twin body r c') :
    Round.replier r ⟨f, c⟩ = Round.replier r ⟨f, c'⟩ := by
  simp only [Round.replier, Round.header_twin r twin, twin.outP]

include oblivious

theorem Round.result_twin (plain : f.Plain body) (twin : c.Twin body r c') :
    Alike (Round.replier r ⟨f, c⟩) (Round.result fs (dispatchLeaf opts) r ⟨f, c⟩)
      (Round.result fs (dispatchLeaf opts) r ⟨f, c'⟩) := by
  rw [Round.result, Round.result, Round.handler_leaf, Round.handler_leaf,
    ← Round.header_twin r twin, ← Round.replier_twin r twin]
  exact dispatchLeaf_twin opts oblivious _ twin.toSameDaemon (plain.sameBody twin.body)
    (plain.header_fit c)

omit oblivious

/-- The nodeid read back is part of what the sub-reply claims. -/
theorem producedBy_alike {sub : Replier} {a b : Replier × World σ} (h : FuseInHeader)
    (out : a.1.out = sub.out) (alike : Alike sub a b) :
    (run (World.step fs) (producedBy h a.1) a.2).1 =
      (run (World.step fs) (producedBy h b.1) b.2).1 := by
  rw [← alike.replier]
  unfold producedBy
  split
  next has =>
    have start : a.1.span.base + 0 = sub.out := out
    have word : (a.2.mem .slot).read sub.out Codec.u64.size =
        (b.2.mem .slot).read sub.out Codec.u64.size := by
      rw [← Memory.take_read _ _ a.1.len _ has.2.1, alike.reply, Memory.take_read _ _ _ _ has.2.1]
    simp only [run_bind, run_load, run_pure]
    rw [start, word]
  · rfl

include oblivious

/-- A round extends two like replies by the same header and the same bytes. -/
theorem Round.next_twin (plain : f.Plain body) (twin : c.Twin body r c') :
    (Round.next fs (dispatchLeaf opts) r ⟨f, c⟩).Twin body r
      (Round.next fs (dispatchLeaf opts) r ⟨f, c'⟩) := by
  have tame := dispatchLeaf_tame_any fs opts
  have alike := Round.result_twin oblivious opts r plain twin
  have header := Round.header_twin (f := f) r twin
  have outHeader : Round.outHeader fs (dispatchLeaf opts) r ⟨f, c⟩ =
      Round.outHeader fs (dispatchLeaf opts) r ⟨f, c'⟩ := by
    rw [Round.outHeader, Round.outHeader, header, alike.replier]
  obtain ⟨answered, touches⟩ := Round.result_tame r tame ⟨f, c⟩
  obtain ⟨-, touches'⟩ := Round.result_tame r tame ⟨f, c'⟩
  have prod : Round.prod fs (dispatchLeaf opts) r ⟨f, c⟩ =
      Round.prod fs (dispatchLeaf opts) r ⟨f, c'⟩ := by
    rw [Round.prod, Round.prod, ← header]
    exact producedBy_alike _ answered.out alike
  refine ⟨alike.toSameDaemon.write .., ?_, ?_, ?_, ?_⟩
  · simp only [Round.next, outHeader, twin.outP]
  · simp only [Round.next, prod, twin.produced]
  · intro a lower upper
    rw [Round.next_scratch r tame, Round.next_scratch r tame]
    exact twin.body a lower upper
  · -- Old reply, out-header, sub-reply.
    have before : ((Round.result fs (dispatchLeaf opts) r ⟨f, c⟩).2.mem .slot).read r.out c.outP =
        ((Round.result fs (dispatchLeaf opts) r ⟨f, c'⟩).2.mem .slot).read r.out c.outP := by
      have untouched (t : Round σ) (outP : t.start.outP = c.outP)
          (touched : t.start.world.Touches (t.replier r).span
            (t.result fs (dispatchLeaf opts) r).2) :
          ((t.result fs (dispatchLeaf opts) r).2.mem .slot).read r.out c.outP =
            (t.start.world.mem .slot).read r.out c.outP := by
        refine Memory.read_congr fun a _ upper => touched.outside a (.inl ?_)
        simp only [Replier.span, Round.replier, carve, outP]
        omega
      rw [untouched ⟨f, c⟩ rfl touches, untouched ⟨f, c'⟩ twin.outP.symm touches']
      exact twin.reply
    have length := Round.outHeader_len_le fs (dispatchLeaf opts) r ⟨f, c⟩
    simp only [Round.next, World.write_mem_same, ← outHeader, ← twin.outP]
    apply Memory.read_extend _ before
    · rw [Codec.length_enc]
      exact alike.reply
    · rw [Codec.length_enc]
      exact Nat.add_le_add_left length _

omit oblivious

/-- The callbacks of a round say the same in both runs. -/
theorem Round.callbacks_twin (plain : f.Plain body) (twin : c.Twin body r c') :
    (callbacks (Round.log fs (dispatchLeaf opts) r ⟨f, c⟩)).map Callback.blank =
      (callbacks (Round.log fs (dispatchLeaf opts) r ⟨f, c'⟩)).map Callback.blank := by
  rw [Round.log, Round.log, Round.handler_leaf, Round.handler_leaf, ← Round.header_twin r twin,
    ← Round.replier_twin r twin]
  exact callbacks_dispatchLeaf_blank opts _ (plain.sameBody twin.body) (plain.header_fit c)

include oblivious

/-- The loop over the frames stays in step in both runs. -/
theorem runFrames_twin (frames : List Frame) (plain : ∀ f ∈ frames, f.Plain body)
    (twin : c.Twin body r c') :
    let progress := runFrames fs (dispatchLeaf opts) r frames c
    let progress' := runFrames fs (dispatchLeaf opts) r frames c'
    progress.finished = progress'.finished ∧ progress.last.Twin body r progress'.last ∧
      (progress.rounds.flatMap fun t => callbacks (t.log fs (dispatchLeaf opts) r)).map
          Callback.blank =
        (progress'.rounds.flatMap fun t => callbacks (t.log fs (dispatchLeaf opts) r)).map
          Callback.blank := by
  -- The frames are the same list in both runs; the cursors move in step.
  induction frames generalizing c c' with
  | nil => exact ⟨rfl, twin, rfl⟩
  | cons f rest ih =>
    dsimp only
    rw [runFrames, runFrames, ← twin.outP]
    split
    · exact ⟨rfl, twin, rfl⟩
    · have here := plain f List.mem_cons_self
      obtain ⟨finished, last, calls⟩ := ih (fun g later => plain g (List.mem_cons_of_mem _ later))
        (Round.next_twin oblivious opts r here twin)
      refine ⟨finished, last, ?_⟩
      rw [List.flatMap_cons, List.flatMap_cons, List.map_append, List.map_append,
        Round.callbacks_twin opts r here twin, calls]

end Rounds

/-! ### The whole dispatch -/

section Dispatch

variable {σ : Type} {fs : Filesystem σ} (oblivious : fs.Oblivious) (opts : SessionOptions)
  (h : FuseInHeader) {body : Span} (r : Replier) {w w' : World σ} (daemon : SameDaemon w w')
  (same : SameBody body w w')

include oblivious daemon same

theorem handleCompound_twin
    (fit : ∀ f ∈ (compoundFrames (w.mem .scratch) body).1, ¬ExtensionOverrun f.header f.payload) :
    Alike r (run (World.step fs) (handleCompound (dispatchLeaf opts) h body r) w)
        (run (World.step fs) (handleCompound (dispatchLeaf opts) h body r) w') ∧
      (callbacks (trace (World.step fs) (handleCompound (dispatchLeaf opts) h body r) w)).map
          Callback.blank =
        (callbacks (trace (World.step fs) (handleCompound (dispatchLeaf opts) h body r) w')).map
          Callback.blank := by
  by_cases small : body.len < FuseCompoundIn.codec.size ∨ r.cap < FuseCompoundOut.codec.size
  · rw [handleCompound_small h small]
    exact ⟨twin_pure rfl w w' daemon, rfl⟩
  · have tame := dispatchLeaf_tame_any fs opts
    have spec := handleCompound_spec tame h body r w small
    have spec' := handleCompound_spec tame h body r w' small
    have frames : compoundFrames (w'.mem .scratch) body = compoundFrames (w.mem .scratch) body :=
      (scanFrames_congr same _ _).symm
    -- Both replies begin with the zeroed `fuse_compound_out`.
    have start : (compoundStart r w).Twin body r (compoundStart r w') := by
      refine ⟨daemon.write .., rfl, rfl, ?_, ?_⟩
      · intro a lower upper
        simp only [compoundStart, World.write_mem_scratch]
        exact same a lower upper
      · simp only [compoundStart, World.write_mem_same]
        rw [← FuseCompoundOut.codec.length_enc {}, Memory.read_write_same, Memory.read_write_same]
    have plain : ∀ f ∈ (compoundFrames (w.mem .scratch) body).1, f.Plain body :=
      fun f among => ⟨scanFrames_within _ _ _ _ _ among, fit f among⟩
    obtain ⟨finished, last, calls⟩ := runFrames_twin oblivious opts r _ plain start
    have results := spec.result
    have results' := spec'.result
    rw [frames] at results'
    simp only [compoundProgress, frames] at results results' spec spec'
    refine ⟨?_, ?_⟩
    · rw [results, results', verdict, verdict, ← finished, ← last.outP]
      split
      · exact ⟨⟨last.fs, last.initDone⟩, rfl, last.reply⟩
      · exact ⟨⟨last.fs, last.initDone⟩, rfl, rfl⟩
    · rw [spec.calls, spec'.calls]
      exact calls

theorem dispatch_twin (fit : ExtensionsFit (w.mem .scratch) h body) :
    Alike r (run (World.step fs) (dispatch opts h body r) w)
        (run (World.step fs) (dispatch opts h body r) w') ∧
      (callbacks (trace (World.step fs) (dispatch opts h body r) w)).map Callback.blank =
        (callbacks (trace (World.step fs) (dispatch opts h body r) w')).map Callback.blank := by
  by_cases compound : h.opcode = Opcode.compound.code
  · rw [dispatch_compound opts h body r compound]
    exact handleCompound_twin oblivious opts h r daemon same (fit.2 compound)
  · rw [dispatch_leaf opts h body r compound]
    exact ⟨dispatchLeaf_twin opts oblivious r daemon same fit.1,
      callbacks_dispatchLeaf_blank opts r same fit.1⟩

end Dispatch

/-! ### Two slots with the same request -/

/-- The two slots agree on what the kernel wrote for a request: the in-header, `op_in`,
`commit_id`, `payload_sz` and that many payload bytes. The rest of the payload area, the
unused header fields and `body_scratch` are arbitrary. -/
structure SameRequest {σ : Type} (w w' : World σ) : Prop extends SameDaemon w w' where
  inHeader : (w.mem .slot).read 0 FuseInHeader.codec.size =
    (w'.mem .slot).read 0 FuseInHeader.codec.size
  opIn : (w.mem .slot).read opInOff fuseUringOpInOutSz =
    (w'.mem .slot).read opInOff fuseUringOpInOutSz
  commitId : (slotEnt w).commitId = (slotEnt w').commitId
  payloadSz : (slotEnt w).payloadSz = (slotEnt w').payloadSz
  payload : (w.mem .slot).read uringReqHeaderSize (slotEnt w).payloadSz.toNat =
    (w'.mem .slot).read uringReqHeaderSize (slotEnt w).payloadSz.toNat

/-- No extensions are announced, by the request or by a sub-request of a compound. -/
def Unextended {σ : Type} (w : World σ) : Prop :=
  (slotHeader w).totalExtlen = 0 ∧ ((slotHeader w).opcode = Opcode.compound.code →
    ∀ f ∈ (compoundFrames ((assembled w).mem .scratch) ⟨0, slotBodyLen w⟩).1,
      f.header.totalExtlen = 0)

/-- The kernel finds the same reply in both slots. -/
structure SameReply {σ : Type} (w w' : World σ) : Prop where
  header : slotOutHeader w = slotOutHeader w'
  payloadSz : (slotEnt w).payloadSz = (slotEnt w').payloadSz
  payload : (w.mem .slot).read uringReqHeaderSize (slotEnt w).payloadSz.toNat =
    (w'.mem .slot).read uringReqHeaderSize (slotEnt w).payloadSz.toNat

section Slots

variable {σ : Type} {w w' : World σ}

theorem not_overrun_of_unextended {h : FuseInHeader} (body : Span) (none : h.totalExtlen = 0) :
    ¬ExtensionOverrun h body := by
  rintro ⟨-, longer⟩
  simp only [extBytes, none, UInt16.toNat_zero, Nat.zero_mul] at longer
  exact Nat.not_lt_zero _ longer

theorem Unextended.fit (plain : Unextended w) :
    ExtensionsFit ((assembled w).mem .scratch) (slotHeader w) ⟨0, slotBodyLen w⟩ :=
  ⟨not_overrun_of_unextended _ plain.1,
    fun compound f among => not_overrun_of_unextended _ (plain.2 compound f among)⟩

theorem SameRequest.header (same : SameRequest w w') : slotHeader w = slotHeader w' := by
  rw [slotHeader, slotHeader, same.inHeader]

theorem SameRequest.firstArg (same : SameRequest w w') : slotFirstArg w = slotFirstArg w' := by
  rw [slotFirstArg, slotFirstArg, same.header, same.payloadSz]

theorem SameRequest.bodyLen (same : SameRequest w w') : slotBodyLen w = slotBodyLen w' := by
  rw [slotBodyLen, slotBodyLen, same.firstArg, same.payloadSz]

theorem SameRequest.oversize (same : SameRequest w w') (e : Entry) :
    Oversize w e ↔ Oversize w' e := by
  rw [Oversize, Oversize, same.firstArg, same.bodyLen]

theorem SameRequest.slotDispatch (same : SameRequest w w') (opts : SessionOptions)
    (payloadBytes : Nat) :
    slotDispatch w opts payloadBytes = slotDispatch w' opts payloadBytes := by
  rw [Fex.slotDispatch, Fex.slotDispatch, slotReplier, slotReplier, same.header, same.bodyLen]

/-- The assembled bodies are the same, whatever the scratches held. -/
theorem SameRequest.sameBody (same : SameRequest w w')
    (first : slotFirstArg w ≤ fuseUringOpInOutSz) :
    SameBody ⟨0, slotBodyLen w⟩ (assembled w) (assembled w') := by
  have head : (w.mem .slot).read opInOff (slotFirstArg w) =
      (w'.mem .slot).read opInOff (slotFirstArg w) := by
    rw [← Memory.take_read _ _ _ _ first, same.opIn, Memory.take_read _ _ _ _ first]
  intro a _ upper
  simp only [slotBodyLen] at upper
  simp only [assembled, World.write_mem_same, ← same.firstArg, ← same.payloadSz, ← head,
    ← same.payload, Memory.write, Memory.length_read]
  -- Every byte of the body is covered by one of the two copies.
  by_cases early : a < slotFirstArg w
  · have opIn : 0 ≤ a ∧ a < 0 + slotFirstArg w := by omega
    have behind : ¬(slotFirstArg w ≤ a ∧ a < slotFirstArg w + (slotEnt w).payloadSz.toNat) := by
      omega
    simp only [if_neg behind, if_pos opIn]
  · have payload : slotFirstArg w ≤ a ∧ a < slotFirstArg w + (slotEnt w).payloadSz.toNat := by
      omega
    simp only [if_pos payload]

theorem published_sameReply {v v' : World σ} (outh : FuseOutHeader) (replySz : UInt32)
    (payload : (v.mem .slot).read uringReqHeaderSize replySz.toNat =
      (v'.mem .slot).read uringReqHeaderSize replySz.toNat) :
    SameReply (published v outh replySz) (published v' outh replySz) := by
  refine ⟨?_, ?_, ?_⟩
  · rw [published_header, published_header]
  · rw [published_payloadSz, published_payloadSz]
  · rw [published_payloadSz, published_payload, published_payload]
    exact payload

/-- Publishing two like replies: the 32-bit size claims no more than the `Replier`. -/
theorem Alike.published {r : Replier} {a b : Replier × World σ} (alike : Alike r a b)
    (area : r.out = uringReqHeaderSize) :
    SameReply (published a.2 (replyHeader a.1) (replySize32 a.1))
      (published b.2 (replyHeader b.1) (replySize32 b.1)) := by
  have claimed : (replySize32 a.1).toNat ≤ a.1.len := by
    unfold replySize32
    split
    · exact Nat.zero_le _
    · rw [UInt32.toNat_ofNat']
      exact Nat.mod_le _ _
  rw [← alike.replier]
  apply published_sameReply
  rw [← area, ← Memory.take_read _ _ _ _ claimed, alike.reply, Memory.take_read _ _ _ _ claimed]

end Slots

/-- Whatever an earlier request or reply left in the slot, the same request leads to the
same callbacks and the same reply. -/
theorem handleOne_noninterference {σ : Type} (fs : Filesystem σ) (oblivious : fs.Oblivious)
    (opts : SessionOptions) (payloadBytes : Nat) (e : Entry) (w w' : World σ)
    (same : SameRequest w w') (plain : Unextended w) :
    let one := handleOne opts payloadBytes e
    (callbacks (trace (World.step fs) one w)).map Callback.blank =
        (callbacks (trace (World.step fs) one w')).map Callback.blank ∧
      SameReply (run (World.step fs) one w).2 (run (World.step fs) one w').2 := by
  intro one
  by_cases oversized : Oversize w e
  · -- The refusal depends on the headers only and carries no bytes.
    obtain ⟨result, calls⟩ := handleOne_oversize fs w opts payloadBytes e oversized
    obtain ⟨result', calls'⟩ := handleOne_oversize fs w' opts payloadBytes e
      ((same.oversize e).mp oversized)
    have header : oversizeHeader w' = oversizeHeader w := by
      rw [oversizeHeader, oversizeHeader, same.header]
    rw [calls, calls', result, result', header]
    exact ⟨rfl, published_sameReply _ 0 rfl⟩
  · obtain ⟨result, calls⟩ := handleOne_dispatches fs w opts payloadBytes e oversized
    obtain ⟨result', calls'⟩ := handleOne_dispatches fs w' opts payloadBytes e
      (mt (same.oversize e).mpr oversized)
    have body : SameBody ⟨0, slotBodyLen w⟩ (assembled w) (assembled w') :=
      same.sameBody (slotFirstArg_le oversized)
    have daemon : SameDaemon (assembled w) (assembled w') :=
      (same.toSameDaemon.write ..).write ..
    obtain ⟨alike, blank⟩ := dispatch_twin oblivious opts (slotHeader w)
      (slotReplier w payloadBytes) daemon body plain.fit
    rw [calls, calls', result, result', ← same.slotDispatch, slotDispatch]
    exact ⟨blank, alike.published rfl⟩

/-! ### A READ in a used slot -/

/-- A daemon whose files are all zeros. -/
def zeroFiles : Filesystem Unit :=
  { Filesystem.failing Errc.ioError with
    read := fun _ _ _ _ span s => ((.ok span.length, Blob.zero span.length), s) }

theorem zeroFiles_oblivious : zeroFiles.Oblivious where
  read _ _ _ _ span span' s length := by
    refine ⟨rfl, congrArg Except.ok length, ?_⟩
    rintro n ⟨⟩ _
    simp only [zeroFiles, Blob.zero, length, Nat.le_refl, and_self]
  getxattr _ _ _ _ _ _ _ := ⟨rfl, rfl, nofun⟩
  listxattr _ _ _ _ _ _ := ⟨rfl, rfl, nofun⟩

/-- READ of 8 bytes. -/
def readRequest : FuseInHeader :=
  { len := 80, opcode := Opcode.read.code, unique := 9, nodeid := 1 }

def readSlot : World Unit :=
  layOut (idle ()) readRequest (FuseReadIn.codec.enc { size := 8 }) []

theorem readSlot_holds :
    HoldsRequest readSlot readRequest (FuseReadIn.codec.enc { size := 8 }) [] :=
  layOut_holds (idle ()) (show KernelSizes 4096 _ _ _ from ⟨by decide, by decide, by decide⟩)

/-- The slot's headers, with every other byte and the scratch set to 255. -/
def World.smeared {σ : Type} (w : World σ) : World σ :=
  { w with mem := fun
    | .slot => fun a => if a < uringReqHeaderSize then w.mem .slot a else 255
    | .scratch => fun _ => 255 }

/-- Without payload bytes, the headers are the request. -/
theorem smeared_sameRequest {σ : Type} {w : World σ} (empty : (slotEnt w).payloadSz = 0) :
    SameRequest w w.smeared := by
  have headers {addr len : Nat} (inside : addr + len ≤ uringReqHeaderSize) :
      (w.mem .slot).read addr len = (w.smeared.mem .slot).read addr len :=
    Memory.read_congr fun a _ upper => (if_pos (by omega)).symm
  have ent : slotEnt w = slotEnt w.smeared := by
    rw [slotEnt, slotEnt, headers (by decide)]
  refine ⟨⟨rfl, rfl⟩, headers (by decide), headers (by decide), ?_, ?_, ?_⟩
  · rw [ent]
  · rw [ent]
  · rw [empty]
    rfl

theorem handleOne_noninterference_read :
    SameRequest readSlot readSlot.smeared ∧ Unextended readSlot ∧
      SameReply (run (World.step zeroFiles) (handleOne {} 4096 (Entry.start 4096)) readSlot).2
        (run (World.step zeroFiles) (handleOne {} 4096 (Entry.start 4096)) readSlot.smeared).2 := by
  have empty : (slotEnt readSlot).payloadSz = 0 :=
    UInt32.toNat_inj.mp readSlot_holds.payloadSz
  have same := smeared_sameRequest empty
  have plain : Unextended readSlot := by
    rw [Unextended, readSlot_holds.header]
    exact ⟨rfl, fun compound => absurd compound (by decide)⟩
  exact ⟨same, plain, (handleOne_noninterference zeroFiles zeroFiles_oblivious {} 4096
    (Entry.start 4096) readSlot readSlot.smeared same plain).2⟩

end Fex
