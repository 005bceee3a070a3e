import Mathlib.Data.List.Infix
import Fex.Passthrough.Daemon
import Fex.Serving

/-!
# BATCH_FORGET and FORGET

## Main result

`batch_forget_is_forgets`: one BATCH_FORGET leaves the daemon in the state in which one FORGET
per entry leaves it, for a daemon with the default `forget_multi` and for the passthrough
daemon; and a batch that ends before its last entry is answered with success and forgets
nothing.

## Proof strategy

The array on the wire decodes to the list (`run_forgetItems`, by induction on the list), so a
batch is one call of `forget_multi` with it. A FORGET is one call of `forget`; any sequence of
them is a fold over the daemon's state (`forgets_iff`). What is left is that `forget_multi` is
this fold: by definition for the default, and item by item for the table of the passthrough
daemon, where only the root needs a look.
-/
namespace Fex

open Foundation Program

/-! ### The requests -/

/-- The array of BATCH_FORGET. -/
def forgetArray (items : List (NodeId × UInt64)) : Bytes :=
  items.flatMap fun item => FuseForgetOne.codec.enc { nodeid := item.1, nlookup := item.2 }

/-- The request holds a batch of `items`, with anything in the unused word and behind the
array. -/
structure HoldsBatch (m : Memory) (h : FuseInHeader) (body : Span)
    (items : List (NodeId × UInt64)) : Prop where
  opcode : h.opcode = Opcode.batchForget.code
  plain : h.totalExtlen = 0
  bytes : ∃ dummy, FuseBatchForgetIn.codec.enc { count := UInt32.ofNat items.length, dummy } ++
    forgetArray items <+: m.read body.base body.len

/-- The request forgets `n` lookups of one node. -/
structure HoldsForget (m : Memory) (h : FuseInHeader) (body : Span) (nodeid : NodeId)
    (n : UInt64) : Prop where
  opcode : h.opcode = Opcode.forget.code
  plain : h.totalExtlen = 0
  nodeid : h.nodeid = nodeid
  bytes : FuseForgetIn.codec.enc { nlookup := n } <+: m.read body.base body.len

/-- Dispatching one FORGET per item, in order, takes the daemon from the first state to the
second. Between two requests only the daemon's state stays as it was. -/
inductive Forgets {σ : Type} (fs : Filesystem σ) (opts : SessionOptions) :
    List (NodeId × UInt64) → σ → σ → Prop where
  | none (s : σ) : Forgets fs opts [] s s
  | one {item : NodeId × UInt64} {items : List (NodeId × UInt64)} {s' : σ} (h : FuseInHeader)
      (body : Span) (r : Replier) (w : World σ) :
      HoldsForget (w.mem .scratch) h body item.1 item.2 →
      Forgets fs opts items (run (World.step fs) (dispatch opts h body r) w).2.fs s' →
      Forgets fs opts (item :: items) w.fs s'

/-- A batch does to the daemon what the single requests do. -/
def BatchIsForgets {σ : Type} (fs : Filesystem σ) : Prop :=
  ∀ (opts : SessionOptions) (items : List (NodeId × UInt64)) (h : FuseInHeader) (body : Span)
    (r : Replier) (w : World σ), items.length < 2 ^ 32 →
    HoldsBatch (w.mem .scratch) h body items →
      ∀ s', Forgets fs opts items w.fs s' ↔
        s' = (run (World.step fs) (dispatch opts h body r) w).2.fs

/-! ### Decoding -/

theorem length_forgetArray (items : List (NodeId × UInt64)) :
    (forgetArray items).length = items.length * FuseForgetOne.codec.size := by
  induction items with
  | nil => rfl
  | cons item items ih =>
    simp only [forgetArray, List.flatMap_cons, List.length_append, Codec.length_enc] at ih ⊢
    simp only [ih, List.length_cons, Nat.succ_mul, Nat.add_comm]

section Decoding

variable {m : Memory} {h : FuseInHeader} {body : Span}

/-- The array behind the counter is the list. -/
theorem run_forgetItems {σ : Type} (fs : Filesystem σ) (w : World σ)
    (items : List (NodeId × UInt64)) (off : Nat)
    (bytes : (w.mem .scratch).read (body.base + off) (forgetArray items).length =
      forgetArray items) :
    run (World.step fs) (forgetItems body off items.length) w = (items, w) := by
  induction items generalizing off with
  | nil => rfl
  | cons item items ih =>
    have array : forgetArray (item :: items) =
        FuseForgetOne.codec.enc { nodeid := item.1, nlookup := item.2 } ++ forgetArray items := rfl
    -- The first record, and the array of the other items right behind it.
    rw [array, List.length_append, Memory.read_add, Codec.length_enc] at bytes
    obtain ⟨first, rest⟩ := List.append_inj bytes (by simp)
    rw [Nat.add_assoc] at rest
    have later := ih (off + FuseForgetOne.codec.size) rest
    simp only [List.length_cons, forgetItems, run_bind, run_load, later, first, Codec.dec_enc,
      run_pure]

theorem decodeAt_batch {items : List (NodeId × UInt64)} (few : items.length < 2 ^ 32)
    (holds : HoldsBatch m h body items) :
    decodeAt m h body = .accept (.batchForget items) := by
  obtain ⟨dummy, bytes⟩ := holds.bytes
  have count : (UInt32.ofNat items.length).toNat = items.length := UInt32.toNat_ofNat_of_lt' few
  have counter := (List.prefix_append _ _).trans bytes
  obtain ⟨fits, whole⟩ := Memory.read_of_prefix bytes
  rw [List.length_append, Codec.length_enc] at fits whole
  rw [Memory.read_add] at whole
  have array := (List.append_inj whole (by simp)).2
  -- The check of the length is passed, since the whole array is in the body.
  have enough : ¬body.len < FuseBatchForgetIn.codec.size +
      items.length * FuseForgetOne.codec.size := by
    rw [← length_forgetArray]
    omega
  have args := run_inArg_plain (Filesystem.failing Errc.ioError) ⟨fun _ => m, false, ()⟩ holds.plain
    counter
  have list := run_forgetItems (Filesystem.failing Errc.ioError) ⟨fun _ => m, false, ()⟩ items _
    array
  rw [decodeAt, decode, (Opcode.ofCode_eq_some_iff _ _).mpr holds.opcode]
  simp only [run_bind, args, parseBatch, count, if_neg enough, list, run_pure]

theorem decodeAt_forget {nodeid : NodeId} {n : UInt64} (holds : HoldsForget m h body nodeid n) :
    decodeAt m h body = .accept (.forget n) := by
  have args := run_inArg_plain (Filesystem.failing Errc.ioError) ⟨fun _ => m, false, ()⟩ holds.plain
    holds.bytes
  rw [decodeAt, decode, (Opcode.ofCode_eq_some_iff _ _).mpr holds.opcode]
  simp only [run_map, args]
  rfl

/-- A batch that ends too early is not decoded at all. -/
theorem decodeAt_truncated {req : FuseBatchForgetIn} (code : h.opcode = Opcode.batchForget.code)
    (plain : h.totalExtlen = 0)
    (counter : FuseBatchForgetIn.codec.enc req <+: m.read body.base body.len)
    (short : body.len < FuseBatchForgetIn.codec.size +
      req.count.toNat * FuseForgetOne.codec.size) :
    decodeAt m h body = .ignore := by
  have args := run_inArg_plain (Filesystem.failing Errc.ioError) ⟨fun _ => m, false, ()⟩ plain
    counter
  rw [decodeAt, decode, (Opcode.ofCode_eq_some_iff _ _).mpr code]
  simp only [run_bind, args, parseBatch, if_pos short, run_pure]

end Decoding

/-! ### Dispatching -/

section Dispatching

variable {σ : Type} (fs : Filesystem σ) (opts : SessionOptions)

theorem dispatch_batch {items : List (NodeId × UInt64)} {h : FuseInHeader} {body : Span}
    (r : Replier) (w : World σ) (few : items.length < 2 ^ 32)
    (holds : HoldsBatch (w.mem .scratch) h body items) :
    (run (World.step fs) (dispatch opts h body r) w).2.fs = fs.forgetMulti items w.fs := by
  have decoded := decodeAt_batch few holds
  rw [dispatch_leaf _ _ _ _ (decodeAt_leaf decoded), run_dispatchLeaf, decoded]
  rfl

theorem dispatch_forget {nodeid : NodeId} {n : UInt64} {h : FuseInHeader} {body : Span}
    (r : Replier) (w : World σ) (holds : HoldsForget (w.mem .scratch) h body nodeid n) :
    (run (World.step fs) (dispatch opts h body r) w).2.fs = fs.forget nodeid n w.fs := by
  have decoded := decodeAt_forget holds
  rw [dispatch_leaf _ _ _ _ (decodeAt_leaf decoded), run_dispatchLeaf, decoded, ← holds.nodeid]
  rfl

/-- A body that holds one FORGET. -/
def forgetWorld (s : σ) (n : UInt64) : World σ :=
  { mem := fun _ => Memory.write (fun _ => 0) 0 (FuseForgetIn.codec.enc { nlookup := n })
    initDone := true
    fs := s }

theorem forgetWorld_holds (s : σ) (nodeid : NodeId) (n : UInt64) :
    HoldsForget ((forgetWorld s n).mem .scratch) { opcode := Opcode.forget.code, nodeid } ⟨0, 8⟩
      nodeid n where
  opcode := rfl
  plain := rfl
  nodeid := rfl
  bytes := by
    have same := Memory.read_write_same (fun _ => 0) 0 (FuseForgetIn.codec.enc { nlookup := n })
    rw [Codec.length_enc] at same
    exact ⟨[], by rw [List.append_nil]; exact same.symm⟩

/-- A sequence of FORGETs folds `forget` over the daemon's state. -/
theorem forgets_iff (items : List (NodeId × UInt64)) (s s' : σ) :
    Forgets fs opts items s s' ↔
      s' = items.foldl (fun s item => fs.forget item.1 item.2 s) s := by
  constructor
  · intro forgets
    induction forgets with
    | none s => rfl
    | one h body r w holds _ ih => rw [ih, dispatch_forget fs opts r w holds, List.foldl_cons]
  · -- Every item has a request that forgets it, in a world of its own.
    intro folded
    induction items generalizing s with
    | nil =>
      rw [folded]
      exact .none s
    | cons item items ih =>
      have holds := forgetWorld_holds s item.1 item.2
      refine .one _ _ {} (forgetWorld s item.2) holds ?_
      rw [dispatch_forget fs opts {} _ holds]
      exact ih _ folded

theorem batchIsForgets_of_foldl
    (folds : ∀ items s, fs.forgetMulti items s =
      items.foldl (fun s item => fs.forget item.1 item.2 s) s) : BatchIsForgets fs := by
  intro opts items h body r w few holds s'
  rw [forgets_iff, dispatch_batch fs opts r w few holds, folds]

end Dispatching

/-! ### The passthrough daemon -/

theorem Passthrough.forgetMulti_eq_foldl {ω : Type} (items : List (NodeId × UInt64))
    (s : Passthrough ω) :
    Passthrough.forgetMulti items s =
      items.foldl (fun s item => Passthrough.forget item.1 item.2 s) s := by
  rw [Passthrough.forgetMulti, InodeTable.forgetMany_eq_foldl]
  induction items generalizing s with
  | nil => rfl
  | cons item items ih =>
    rw [List.foldl_cons, List.foldl_cons, ← ih]
    rfl

/-- One batch is one FORGET per item, and a truncated batch is nothing. -/
theorem batch_forget_is_forgets :
    (∀ (σ : Type) (fs : Filesystem σ), fs.forgetMulti = Filesystem.defaultForgetMulti fs.forget →
      BatchIsForgets fs) ∧
    (∀ (ω : Type) (os : System ω), BatchIsForgets (Passthrough.filesystem os)) ∧
    ∀ (σ : Type) (fs : Filesystem σ) (opts : SessionOptions) (h : FuseInHeader) (body : Span)
      (r : Replier) (w : World σ) (req : FuseBatchForgetIn),
      h.opcode = Opcode.batchForget.code → h.totalExtlen = 0 →
      FuseBatchForgetIn.codec.enc req <+: (w.mem .scratch).read body.base body.len →
      body.len < FuseBatchForgetIn.codec.size + req.count.toNat * FuseForgetOne.codec.size →
        callbacks (trace (World.step fs) (dispatch opts h body r) w) = [] ∧
        run (World.step fs) (dispatch opts h body r) w = ({ r with negErr := 0, len := 0 }, w) := by
  refine ⟨?_, ?_, ?_⟩
  · intro σ fs default
    apply batchIsForgets_of_foldl
    intro items s
    rw [default, Filesystem.defaultForgetMulti]
  · intro ω os
    apply batchIsForgets_of_foldl
    exact Passthrough.forgetMulti_eq_foldl
  · -- `handle_batch_forget` returns before it has read an entry.
    intro σ fs opts h body r w req code plain counter short
    have decoded := decodeAt_truncated code plain counter short
    have leaf : h.opcode ≠ Opcode.compound.code := by
      rw [code]
      decide
    rw [dispatch_leaf _ _ _ _ leaf, callbacks_dispatchLeaf, run_dispatchLeaf, decoded]
    exact ⟨rfl, rfl⟩

/-- Lookups of node 5 beyond what the table counts, of the root and of a node it does not know. -/
def forgotten : List (NodeId × UInt64) := [(5, 1), (NodeId.root, 9), (5, 4), (7, 1)]

/-- A body that holds the batch, and a passthrough daemon that has looked node 5 up twice. -/
def batchWorld : World (Passthrough Unit) :=
  { mem := fun _ => Memory.write (fun _ => 0) 0
      (FuseBatchForgetIn.codec.enc { count := 4 } ++ forgetArray forgotten)
    initDone := true
    fs := { table := ((InodeTable.start 3).insert 4 5).2.insert 6 5 |>.2, system := () } }

theorem batch_forget_is_forgets_passthrough :
    let fs := Passthrough.filesystem (System.failing Errc.ioError)
    let header : FuseInHeader := { opcode := Opcode.batchForget.code }
    Forgets fs {} forgotten batchWorld.fs
      (run (World.step fs) (dispatch {} header ⟨0, 72⟩ {}) batchWorld).2.fs ∧
    callbacks (trace (World.step fs) (dispatch {} header ⟨0, 71⟩ {}) batchWorld) = [] := by
  have bytes : (batchWorld.mem .scratch).read 0 72 =
      FuseBatchForgetIn.codec.enc { count := 4 } ++ forgetArray forgotten :=
    Memory.read_write_same ..
  have holds : HoldsBatch (batchWorld.mem .scratch) { opcode := Opcode.batchForget.code } ⟨0, 72⟩
      forgotten :=
    { opcode := rfl
      plain := rfl
      bytes := ⟨0, [], by rw [bytes, List.append_nil]; rfl⟩ }
  -- Without its last byte the body still has the counter.
  have counter : FuseBatchForgetIn.codec.enc { count := 4 } <+:
      (batchWorld.mem .scratch).read 0 71 := by
    rw [← Memory.take_read _ _ 72 _ (by decide), bytes, List.prefix_take_iff]
    exact ⟨List.prefix_append .., by decide⟩
  exact ⟨(batch_forget_is_forgets.2.1 _ _ {} _ _ _ {} batchWorld (by decide) holds _).mpr rfl,
    (batch_forget_is_forgets.2.2 _ _ {} _ ⟨0, 71⟩ {} batchWorld _ rfl rfl counter (by decide)).1⟩

end Fex
