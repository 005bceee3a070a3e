import Mathlib.Data.List.Nodup
import Fex.RingWorker

/-!
# No ring slot is lost, duplicated or answered twice

## Main result

`ring_conserves_slots`: in every reachable state of a worker, each slot is in just one
of the submission queue, the kernel, the completion queue and the worker's hand;
`io_uring_get_sqe` has room; the buffers of a slot are only touched by the side that
has it; and each delivered request is committed at most once, under its own commit id.

## Proof strategy

Every slot, and the stop poll, is a token, named by its user data. `Conserved` says
that the tokens of the four places together are the tokens of `start()`, so each is
there once; it is kept by every step, and it is what excludes the branches that would
drop a slot. `Answers` follows the requests: wherever a slot with an unanswered
request is, its commit id is known. A step moves one token, and `Conserved` makes
sure that no other slot is concerned.
-/
namespace Fex

open Foundation Program

/-! ### Tokens -/

/-- The tokens of one ring: the stop poll and the slots. -/
def RingConfig.tokens {σ : Type} (cfg : RingConfig σ) : List UInt64 :=
  kStopSentinel :: (List.range cfg.depth.toNat).map fun i => makeUd (UInt32.ofNat i)

/-- The token the loop was left with. -/
def Exit.hand : Exit → List UInt64
  | stopped => [kStopSentinel]
  | gone idx | fatal idx | sqFull idx => [makeUd idx]
  | waitFailed | submitFailed => []

/-- The token taken off the completion queue and not queued again. -/
def Phase.hand : Phase → List UInt64
  | waiting | submitting _ => []
  | handling idx | rearming idx | committing idx _ | flushing idx => [makeUd idx]
  | exited why => why.hand

namespace Ring

variable {σ : Type} (cfg : RingConfig σ)

def sqTokens (s : Ring σ) : List UInt64 := s.sq.map Sqe.userData

def kernelTokens (s : Ring σ) : List UInt64 := s.kernel.map Sqe.userData

def cqTokens (s : Ring σ) : List UInt64 := s.cq.map Cqe.userData

/-- The tokens of all four places. -/
def tokens (s : Ring σ) : List UInt64 :=
  s.sqTokens ++ (s.kernelTokens ++ (s.cqTokens ++ s.phase.hand))

end Ring

section Tokens

variable {σ : Type} {cfg : RingConfig σ}

theorem makeUd_ofNat_toNat {i : Nat} (below : i < cfg.depth.toNat) :
    (makeUd (UInt32.ofNat i)).toNat = i := by
  rw [makeUd_toNat, UInt32.toNat_ofNat_of_lt' (Nat.lt_trans below cfg.depth.toNat_lt)]

theorem mem_tokens_iff (t : UInt64) :
    t ∈ cfg.tokens ↔ t = kStopSentinel ∨ t.toNat < cfg.depth.toNat := by
  simp only [RingConfig.tokens, List.mem_cons, List.mem_map, List.mem_range]
  refine or_congr Iff.rfl ⟨?_, ?_⟩
  · rintro ⟨i, below, rfl⟩
    rw [makeUd_ofNat_toNat below]
    exact below
  · intro below
    refine ⟨t.toNat, below, ?_⟩
    apply UInt64.toNat_inj.mp
    exact makeUd_ofNat_toNat below

variable (cfg) in
/-- The sentinel is no slot. -/
theorem kStopSentinel_toNat : cfg.depth.toNat ≤ kStopSentinel.toNat := by
  have small := cfg.depth.toNat_lt
  have large : kStopSentinel.toNat = 2 ^ 64 - 1 := rfl
  omega

theorem nodup_tokens : cfg.tokens.Nodup := by
  refine List.nodup_cons.mpr ⟨?_, ?_⟩
  · intro member
    obtain ⟨i, below, same⟩ := List.mem_map.mp member
    have large := kStopSentinel_toNat cfg
    rw [← same, makeUd_ofNat_toNat (List.mem_range.mp below)] at large
    exact absurd (List.mem_range.mp below) (Nat.not_lt.mpr large)
  · refine List.Nodup.map_on ?_ List.nodup_range
    intro i first j second same
    have numbers := congrArg UInt64.toNat same
    rwa [makeUd_ofNat_toNat (List.mem_range.mp first),
      makeUd_ofNat_toNat (List.mem_range.mp second)] at numbers

theorem length_tokens : cfg.tokens.length = cfg.depth.toNat + 1 := by
  simp [RingConfig.tokens]

end Tokens

/-! ### Conservation -/

/-- The four places hold the tokens of `start()`; the sentinel marks the stop poll. -/
structure Conserved {σ : Type} (cfg : RingConfig σ) (s : Ring σ) : Prop where
  tokens : s.tokens.Perm cfg.tokens
  polls : ∀ q ∈ s.sq ++ s.kernel, q.cmd = .pollAdd ↔ q.userData = kStopSentinel

namespace Conserved

variable {σ : Type} {cfg : RingConfig σ} {s : Ring σ} (conserved : Conserved cfg s)

include conserved

theorem nodup : s.tokens.Nodup := conserved.tokens.nodup_iff.mpr nodup_tokens

theorem known {t : UInt64} (member : t ∈ s.tokens) :
    t = kStopSentinel ∨ t.toNat < cfg.depth.toNat :=
  (mem_tokens_iff t).mp (conserved.tokens.mem_iff.mp member)

/-- With a token in hand the submission queue has room. -/
theorem sq_room {t : UInt64} (hand : s.phase.hand = [t]) : s.sq.length < cfg.capacity := by
  have total := conserved.tokens.length_eq
  have room := cfg.room
  simp only [Ring.tokens, Ring.sqTokens, List.length_append, List.length_map, hand,
    List.length_singleton, length_tokens] at total
  omega

end Conserved

section Steps

variable {σ : Type} {cfg : RingConfig σ} {s : Ring σ}

theorem Ring.tokens_congr {s' : Ring σ} (sq : s'.sq = s.sq) (kernel : s'.kernel = s.kernel)
    (cq : s'.cq = s.cq) (hand : s'.phase.hand = s.phase.hand) : s'.tokens = s.tokens := by
  simp only [tokens, sqTokens, kernelTokens, cqTokens, sq, kernel, cq, hand]

/-- A step that keeps the queues and the hand. -/
theorem Conserved.congr {s' : Ring σ} (conserved : Conserved cfg s) (sq : s'.sq = s.sq)
    (kernel : s'.kernel = s.kernel) (cq : s'.cq = s.cq)
    (hand : s'.phase.hand = s.phase.hand) : Conserved cfg s' := by
  constructor
  · rw [Ring.tokens_congr sq kernel cq hand]
    exact conserved.tokens
  · rw [sq, kernel]
    exact conserved.polls

theorem Conserved.consumeOne (conserved : Conserved cfg s) : Conserved cfg s.consumeOne := by
  unfold Ring.consumeOne
  split
  · exact conserved
  next q rest queued =>
    constructor
    · refine List.Perm.trans ?_ conserved.tokens
      rw [List.perm_iff_count]
      intro t
      simp only [Ring.tokens, Ring.sqTokens, Ring.kernelTokens, Ring.cqTokens, queued,
        List.map_append, List.map_cons, List.map_nil, List.count_append, List.count_cons,
        List.count_nil]
      omega
    · intro p member
      apply conserved.polls
      simp only [queued, List.mem_append, List.mem_cons] at member ⊢
      tauto

theorem Conserved.consume (conserved : Conserved cfg s) (n : Nat) : Conserved cfg (s.consume n) :=
  Ring.consume_invariant (Conserved cfg) (fun _ held => held.consumeOne) n s conserved

theorem Conserved.complete (conserved : Conserved cfg s) {before : List Sqe} {q : Sqe}
    {after : List Sqe} (res : Int32) (contents : Memory) (held : s.kernel = before ++ q :: after) :
    Conserved cfg (s.complete before q after res contents) := by
  constructor
  · refine List.Perm.trans ?_ conserved.tokens
    rw [List.perm_iff_count]
    intro t
    simp only [Ring.tokens, Ring.sqTokens, Ring.kernelTokens, Ring.cqTokens, Ring.complete_sq,
      Ring.complete_kernel, Ring.complete_cq, Ring.complete_phase, held, List.map_append,
      List.map_cons, List.map_nil, List.count_append, List.count_cons, List.count_nil]
    omega
  · intro p member
    apply conserved.polls
    simp only [Ring.complete_sq, Ring.complete_kernel, held, List.mem_append, List.mem_cons]
      at member ⊢
    tauto

/-- The worker's decision keeps the token it took: no completion is out of range. -/
theorem afterCqe_hand {c : Cqe} (ec : Int32)
    (known : c.userData = kStopSentinel ∨ c.userData.toNat < cfg.depth.toNat) :
    (Ring.afterCqe cfg.depth ec c).1.hand = [c.userData] := by
  unfold Ring.afterCqe
  split
  next stop => rw [stop]; rfl
  next slot =>
    have below := known.resolve_left slot
    have whole : makeUd c.userData.toUInt32 = c.userData :=
      makeUd_toUInt32 (Nat.lt_trans below cfg.depth.toNat_lt)
    have inRange : ¬cfg.depth ≤ c.userData.toUInt32 := by
      rw [UInt32.le_iff_toNat_le, ← makeUd_toNat c.userData.toUInt32, whole]
      exact Nat.not_le.mpr below
    dsimp only
    rw [if_neg inRange]
    split
    · split
      · exact congrArg (fun t => [t]) whole
      · split
        · exact congrArg (fun t => [t]) whole
        · exact congrArg (fun t => [t]) whole
    · exact congrArg (fun t => [t]) whole

theorem Conserved.take (conserved : Conserved cfg s) {c : Cqe} {rest : List Cqe}
    (waits : s.phase = .waiting) (first : s.cq = c :: rest) :
    Conserved cfg (s.take cfg c rest) := by
  have member : c.userData ∈ s.tokens := by
    simp [Ring.tokens, Ring.cqTokens, first]
  have hand := afterCqe_hand s.ec (conserved.known member)
  have empty : s.phase.hand = [] := by rw [waits]; rfl
  constructor
  · refine List.Perm.trans ?_ conserved.tokens
    rw [List.perm_iff_count]
    intro t
    simp only [Ring.tokens, Ring.take, hand, empty, Ring.sqTokens, Ring.kernelTokens,
      Ring.cqTokens, first, List.map_cons, List.count_append, List.count_cons, List.count_nil]
    omega
  · exact conserved.polls

theorem Conserved.queue (conserved : Conserved cfg s) {q : Sqe} {phase : Phase} {idx : UInt32}
    (ud : q.userData = makeUd idx) (slot : q.cmd ≠ .pollAdd)
    (taken : s.phase.hand = [makeUd idx]) (empty : phase.hand = []) :
    Conserved cfg (s.queue q phase) := by
  constructor
  · refine List.Perm.trans ?_ conserved.tokens
    rw [List.perm_iff_count]
    intro t
    simp only [Ring.tokens, Ring.queue, taken, empty, ud, Ring.sqTokens, Ring.kernelTokens,
      Ring.cqTokens, List.map_append, List.map_cons, List.map_nil, List.count_append,
      List.count_cons, List.count_nil]
    omega
  · intro p member
    simp only [Ring.queue, List.mem_append, List.mem_singleton] at member
    rcases member with (old | rfl) | held
    · exact conserved.polls p (List.mem_append_left _ old)
    · rw [ud]
      exact iff_of_false slot (makeUd_ne_sentinel idx)
    · exact conserved.polls p (List.mem_append_right _ held)

theorem Phase.Submits.hand {p p' : Phase} (submits : p.Submits p') : p'.hand = p.hand := by
  cases submits <;> rfl

theorem Phase.WantsSqe.hand {p : Phase} {idx : UInt32} (wants : p.WantsSqe idx) :
    p.hand = [makeUd idx] := by
  cases wants <;> rfl

/-- Every step moves tokens between the four places and loses none. -/
theorem Conserved.step (conserved : Conserved cfg s) {s' : Ring σ} (step : Ring.Step cfg s s') :
    Conserved cfg s' := by
  cases step with
  | complete before q after res contents held => exact conserved.complete res contents held
  | interfere daemon initDone => exact conserved.congr rfl rfl rfl rfl
  | idle => exact conserved
  | leave ec waits => exact conserved.congr rfl rfl rfl (by rw [waits]; rfl)
  | take c rest waits first => exact conserved.take waits first
  | handle idx landed => exact conserved.congr rfl rfl rfl (by rw [landed]; rfl)
  | rearm idx wants =>
    refine conserved.queue rfl ?_ (by rw [wants]; rfl) rfl
    simp [prepRegister]
  | commit idx retried wants =>
    refine conserved.queue rfl ?_ (by rw [wants]; rfl) rfl
    simp [prepCommitAndFetch]
  | stuck idx phase ec wants misses full =>
    -- A full queue would hold more tokens than there are.
    exact absurd (conserved.sq_room wants.hand) (Nat.not_lt.mpr full)
  | submit n phase ec submits =>
    exact (conserved.consume n).congr rfl rfl rfl (by rw [Ring.consume_phase]; exact submits.hand)

theorem Conserved.armed (daemon : σ) (initDone : Bool) :
    Conserved cfg (Ring.armed cfg daemon initDone) := by
  constructor
  · apply List.Perm.of_eq
    simp [Ring.tokens, Ring.sqTokens, Ring.kernelTokens, Ring.cqTokens, Phase.hand, Ring.armed,
      RingConfig.tokens, prepPoll, prepRegister]
  · intro q member
    simp only [Ring.armed, List.append_nil, List.mem_cons, List.mem_map] at member
    rcases member with rfl | ⟨i, -, rfl⟩
    · exact iff_of_true rfl rfl
    · exact iff_of_false (by simp [prepRegister]) (makeUd_ne_sentinel _)

end Steps

/-! ### Requests and commits -/

/-- Slot `i` was given a request last that has commit id `id` and is not answered. -/
def Ring.Pending {σ : Type} (s : Ring σ) (i : UInt32) (id : UInt64) : Prop :=
  ∃ n, s.current i = some n ∧ (∀ p ∈ s.committed, p.1 ≠ n) ∧ s.delivered[n]? = some id

/-- Slot `i` is somewhere on the way from its request to the commit, and `id` is what
the code will use, or already uses, as commit id. -/
inductive Ring.Expects {σ : Type} (s : Ring σ) : UInt32 → UInt64 → Prop where
  | landed {i : UInt32} (c : Cqe) (member : c ∈ s.cq) (slot : c.userData = makeUd i)
      (success : ¬c.res < 0) : Expects s i (commitIdIn (s.slots i).buf)
  | handling {i : UInt32} (phase : s.phase = .handling i) :
      Expects s i (commitIdIn (s.slots i).buf)
  | committing {i : UInt32} {retried : Bool} (phase : s.phase = .committing i retried) :
      Expects s i (s.slots i).entry.commitId
  | flushing {i : UInt32} (phase : s.phase = .flushing i) :
      Expects s i (s.slots i).entry.commitId
  | queued {i : UInt32} {id : UInt64} (q : Sqe) (member : q ∈ s.sq) (slot : q.userData = makeUd i)
      (commits : q.cmd = .commitAndFetch id) : Expects s i id

/-- The ledger of requests: each slot has its own, each commit is of a delivered
request under its id and happens once, and what is expected is pending. -/
structure Answers {σ : Type} (s : Ring σ) : Prop where
  numbered : ∀ i n, s.current i = some n → n < s.delivered.length
  distinct : ∀ i j n, s.current i = some n → s.current j = some n → i = j
  expects : ∀ i id, s.Expects i id → s.Pending i id
  own : ∀ p ∈ s.committed, s.delivered[p.1]? = some p.2
  once : (s.committed.map Prod.fst).Nodup

section Requests

variable {σ : Type} {cfg : RingConfig σ} {s : Ring σ}

/-- An expecting slot's token is not with the kernel. -/
theorem Ring.Expects.token {i : UInt32} {id : UInt64} (expects : s.Expects i id) :
    makeUd i ∈ s.sqTokens ++ (s.cqTokens ++ s.phase.hand) := by
  cases expects with
  | landed c member slot success =>
    apply List.mem_append_right
    apply List.mem_append_left
    exact List.mem_map.mpr ⟨c, member, slot⟩
  | handling phase | committing phase | flushing phase =>
    apply List.mem_append_right
    apply List.mem_append_right
    rw [phase]
    exact List.mem_singleton.mpr rfl
  | queued q member slot commits =>
    apply List.mem_append_left
    exact List.mem_map.mpr ⟨q, member, slot⟩

/-- A step that leaves the ledger alone and expects nothing new. -/
theorem Answers.congr {s' : Ring σ} (answers : Answers s) (current : s'.current = s.current)
    (delivered : s'.delivered = s.delivered) (committed : s'.committed = s.committed)
    (expects : ∀ i id, s'.Expects i id → s.Expects i id) : Answers s' where
  numbered := by
    rw [current, delivered]
    exact answers.numbered
  distinct := by
    rw [current]
    exact answers.distinct
  expects i id expected := by
    unfold Ring.Pending
    rw [current, delivered, committed]
    exact answers.expects i id (expects i id expected)
  own := by
    rw [delivered, committed]
    exact answers.own
  once := by
    rw [committed]
    exact answers.once

/-- Slots are named by their index in the places the worker sees. -/
theorem Conserved.slot_name (conserved : Conserved cfg s) {t : UInt64} (member : t ∈ s.tokens)
    (slot : t ≠ kStopSentinel) : t = makeUd t.toUInt32 := by
  have below := (conserved.known member).resolve_left slot
  exact (makeUd_toUInt32 (Nat.lt_trans below cfg.depth.toNat_lt)).symm

theorem Ring.Expects.transfer {s' : Ring σ} {i : UInt32} {id : UInt64} (expects : s'.Expects i id)
    (sq : ∀ q ∈ s'.sq, q ∈ s.sq) (cq : ∀ c ∈ s'.cq, c.userData = makeUd i → c ∈ s.cq)
    (phase : s'.phase = s.phase) (slot : s'.slots i = s.slots i) : s.Expects i id := by
  cases expects with
  | landed c member ud success =>
    rw [slot]
    exact .landed c (cq c member ud) ud success
  | handling here =>
    rw [slot]
    exact .handling (phase ▸ here)
  | committing here =>
    rw [slot]
    exact .committing (phase ▸ here)
  | flushing here =>
    rw [slot]
    exact .flushing (phase ▸ here)
  | queued q member ud commits => exact .queued q (sq q member) ud commits

theorem Answers.committed_lt (answers : Answers s) {p : Nat × UInt64}
    (committed : p ∈ s.committed) : p.1 < s.delivered.length :=
  (List.getElem?_eq_some_iff.mp (answers.own p committed)).1

/-- A queued commit is for a slot. -/
theorem Conserved.commit_name (conserved : Conserved cfg s) {q : Sqe} {id : UInt64}
    (member : q ∈ s.sq) (command : q.cmd = .commitAndFetch id) :
    q.userData = makeUd q.userData.toUInt32 := by
  refine conserved.slot_name (List.mem_append_left _ (List.mem_map_of_mem member)) ?_
  intro stop
  have poll := (conserved.polls q (List.mem_append_left _ member)).mpr stop
  rw [command] at poll
  cases poll

/-- The slot of the first queue entry expects nothing of any other place. -/
theorem Conserved.head_unexpected (conserved : Conserved cfg s) {q : Sqe} {rest : List Sqe}
    (queued : s.sq = q :: rest) (name : q.userData = makeUd q.userData.toUInt32) (id : UInt64) :
    ¬({ s with sq := rest } : Ring σ).Expects q.userData.toUInt32 id := by
  intro expects
  have here := expects.token
  rw [← name] at here
  have apart := conserved.nodup
  simp only [Ring.tokens, Ring.sqTokens, Ring.cqTokens, queued, List.map_cons,
    List.cons_append, List.nodup_cons, List.mem_append] at apart here
  tauto

/-- A pending request is answered: the ledger has one more entry of its own. -/
theorem Answers.commit (answers : Answers s) {n : Nat} {id : UInt64}
    (fresh : ∀ p ∈ s.committed, p.1 ≠ n) (delivered : s.delivered[n]? = some id) :
    (∀ p ∈ s.committed ++ [(n, id)], s.delivered[p.1]? = some p.2) ∧
      ((s.committed ++ [(n, id)]).map Prod.fst).Nodup := by
  refine ⟨?_, ?_⟩
  · intro p committed
    rcases List.mem_append.mp committed with old | new
    · exact answers.own p old
    · obtain rfl := List.mem_singleton.mp new
      exact delivered
  · rw [List.map_append, List.nodup_append]
    refine ⟨answers.once, List.nodup_singleton _, ?_⟩
    intro a old b new same
    obtain ⟨p, committed, rfl⟩ := List.mem_map.mp old
    obtain rfl : b = n := by simpa using new
    exact fresh p committed same

/-- The kernel consumes a commit: its request is answered, and no other is concerned. -/
theorem Answers.consumeOne (conserved : Conserved cfg s) (answers : Answers s) :
    Answers s.consumeOne := by
  unfold Ring.consumeOne
  split
  · exact answers
  next q rest queued =>
    have member : q ∈ s.sq := by rw [queued]; exact List.mem_cons_self
    have fewer : ∀ p ∈ rest, p ∈ s.sq := by
      intro p later
      rw [queued]
      exact List.mem_cons_of_mem q later
    cases command : q.cmd with
    | pollAdd | register =>
      have none : s.commitOf q = none := by simp [Ring.commitOf, command]
      refine answers.congr rfl rfl (by simp [none]) fun i id expects => ?_
      exact expects.transfer fewer (fun _ held _ => held) rfl rfl
    | commitAndFetch id =>
      have name := conserved.commit_name member command
      obtain ⟨n, current, fresh, delivered⟩ :=
        answers.expects _ id (.queued q member name command)
      have commit : s.commitOf q = some (n, id) := by
        simp [Ring.commitOf, command, current]
      rw [commit]
      obtain ⟨own, once⟩ := answers.commit fresh delivered
      refine ⟨answers.numbered, answers.distinct, ?_, own, once⟩
      intro i other expects
      have before : s.Expects i other := expects.transfer fewer (fun _ held _ => held) rfl rfl
      obtain ⟨n', current', fresh', delivered'⟩ := answers.expects i other before
      refine ⟨n', current', ?_, delivered'⟩
      intro p committed same
      rcases List.mem_append.mp committed with old | new
      · exact fresh' p old same
      · -- The same number means the same slot, but its token has just left.
        obtain rfl := List.mem_singleton.mp new
        obtain rfl := answers.distinct _ _ _ current (same ▸ current')
        refine conserved.head_unexpected queued name other ?_
        exact expects.transfer (fun _ held => held) (fun _ held _ => held) rfl rfl

theorem Answers.consume (conserved : Conserved cfg s) (answers : Answers s) (n : Nat) :
    Answers (s.consume n) := by
  refine (Ring.consume_invariant (fun v => Conserved cfg v ∧ Answers v) ?_ n s
    ⟨conserved, answers⟩).2
  rintro v ⟨kept, told⟩
  exact ⟨kept.consumeOne, told.consumeOne kept⟩

/-- The kernel has the token of a command it holds, so the worker expects nothing of that
slot. -/
theorem Conserved.held_unexpected (conserved : Conserved cfg s) {q : Sqe} (held : q ∈ s.kernel)
    (name : q.userData = makeUd q.userData.toUInt32) (id : UInt64) :
    ¬s.Expects q.userData.toUInt32 id := by
  intro expects
  have here := expects.token
  rw [← name] at here
  have there : q.userData ∈ s.kernelTokens := List.mem_map_of_mem held
  have apart := conserved.nodup
  simp only [Ring.tokens, List.nodup_append, List.mem_append] at apart here
  rcases here with queued | landed | hand
  · exact apart.2.2 _ queued _ (.inl there) rfl
  · exact apart.2.1.2.2 _ there _ (.inl landed) rfl
  · exact apart.2.1.2.2 _ there _ (.inr hand) rfl

/-- After a delivery to `idx`, that slot has the new number and every other its old one. -/
theorem Answers.number_cases (answers : Answers s) {idx i : UInt32} {n : Nat}
    (current : Function.update s.current idx (some s.delivered.length) i = some n) :
    i = idx ∧ n = s.delivered.length ∨
      i ≠ idx ∧ s.current i = some n ∧ n < s.delivered.length := by
  by_cases here : i = idx
  · rw [here, Function.update_self] at current
    exact .inl ⟨here, (Option.some.inj current).symm⟩
  · rw [Function.update_of_ne here] at current
    exact .inr ⟨here, current, answers.numbered i n current⟩

/-- Where nothing was expected, a delivery leads to the commit of what it delivers. -/
theorem Ring.Expects.of_deliver {idx : UInt32} {id : UInt64} {contents : Memory}
    {kernel : List Sqe} {cq : List Cqe} (unexpected : ∀ id, ¬s.Expects idx id)
    (expects : (Ring.deliver { s with kernel := kernel, cq := cq } idx contents).Expects idx id) :
    id = Ring.commitIdIn contents := by
  cases expects with
  | landed | handling => simp [Ring.deliver]
  | committing phase => exact absurd (.committing phase) (unexpected _)
  | flushing phase => exact absurd (.flushing phase) (unexpected _)
  | queued p member slot commits => exact absurd (.queued p member slot commits) (unexpected _)

/-- A request lands in the slot of a command the kernel held. -/
theorem Answers.deliver (conserved : Conserved cfg s) (answers : Answers s) {q : Sqe}
    (held : q ∈ s.kernel) (name : q.userData = makeUd q.userData.toUInt32) (contents : Memory)
    (kernel : List Sqe) (res : Int32) :
    Answers (Ring.deliver { s with kernel := kernel, cq := s.cq ++ [⟨q.userData, res⟩] }
      q.userData.toUInt32 contents) := by
  constructor
  · intro i n current
    simp only [Ring.deliver, List.length_append, List.length_singleton]
    rcases answers.number_cases current with ⟨-, rfl⟩ | ⟨-, -, below⟩
    · exact Nat.lt_succ_self _
    · exact Nat.lt_succ_of_lt below
  · intro i j n first second
    rcases answers.number_cases first with ⟨rfl, new⟩ | ⟨away, old, below⟩
    · rcases answers.number_cases second with ⟨rfl, -⟩ | ⟨-, -, below⟩
      · rfl
      · omega
    · rcases answers.number_cases second with ⟨-, new⟩ | ⟨-, old', -⟩
      · omega
      · exact answers.distinct i j n old old'
  · intro i id expects
    by_cases here : i = q.userData.toUInt32
    · -- The slot's new request is the last one delivered.
      subst here
      have same := expects.of_deliver (conserved.held_unexpected held name)
      refine ⟨s.delivered.length, Function.update_self .., ?_, by simp [Ring.deliver, same]⟩
      intro p committed number
      have below := answers.committed_lt committed
      omega
    · have old : s.Expects i id := by
        refine expects.transfer (fun _ member => member) ?_ rfl (Function.update_of_ne here _ _)
        intro c member slot
        rcases List.mem_append.mp member with old | new
        · exact old
        · rw [List.mem_singleton.mp new, name] at slot
          exact absurd (makeUd_injective slot).symm here
      obtain ⟨n, current, fresh, delivered⟩ := answers.expects i id old
      refine ⟨n, (Function.update_of_ne here _ _).trans current, fresh, ?_⟩
      simp only [Ring.deliver]
      rw [List.getElem?_append_left (answers.numbered i n current)]
      exact delivered
  · intro p committed
    simp only [Ring.deliver]
    rw [List.getElem?_append_left (answers.committed_lt committed)]
    exact answers.own p committed
  · exact answers.once

/-- The kernel completes a command: either nothing is delivered, or its slot holds a
request with a number of its own. -/
theorem Answers.complete (conserved : Conserved cfg s) (answers : Answers s) {before : List Sqe}
    {q : Sqe} {after : List Sqe} (res : Int32) (contents : Memory)
    (held : s.kernel = before ++ q :: after) :
    Answers (s.complete before q after res contents) := by
  have member : q ∈ s.kernel := by rw [held]; simp
  have poll := conserved.polls q (List.mem_append_right _ member)
  unfold Ring.complete
  dsimp only
  split
  next quiet =>
    refine answers.congr rfl rfl rfl fun i id expects => ?_
    cases expects with
    | landed c among slot success =>
      rcases List.mem_append.mp among with old | new
      · exact .landed c old slot success
      · -- Had the new completion delivered a request, it would be no poll and no error.
        obtain rfl := List.mem_singleton.mp new
        rcases quiet with stop | failed
        · exact absurd (slot.symm.trans (poll.mp stop)) (makeUd_ne_sentinel i)
        · exact absurd failed success
    | handling phase => exact .handling phase
    | committing phase => exact .committing phase
    | flushing phase => exact .flushing phase
    | queued p among slot commits => exact .queued p among slot commits
  next delivers =>
    simp only [not_or] at delivers
    have slot : q.userData ≠ kStopSentinel := fun stop => delivers.1 (poll.mpr stop)
    have token : q.userData ∈ s.tokens := by
      apply List.mem_append_right
      apply List.mem_append_left
      exact List.mem_map_of_mem member
    have name := conserved.slot_name token slot
    exact answers.deliver conserved member name contents _ res

/-- The worker takes a completion: a success is the request it now handles. -/
theorem Answers.take (conserved : Conserved cfg s) (answers : Answers s) {c : Cqe}
    {rest : List Cqe} (first : s.cq = c :: rest) : Answers (s.take cfg c rest) := by
  have member : c ∈ s.cq := by rw [first]; exact List.mem_cons_self
  have token : c.userData ∈ s.tokens := by simp [Ring.tokens, Ring.cqTokens, first]
  refine answers.congr rfl rfl rfl fun i id expects => ?_
  cases expects with
  | landed d later slot success =>
    exact .landed d (by rw [first]; exact List.mem_cons_of_mem c later) slot success
  | handling phase =>
    obtain ⟨slot, rfl, success⟩ := Ring.afterCqe_handling phase
    exact .landed c member (conserved.slot_name token slot) success
  | committing phase => exact absurd phase ((Ring.afterCqe_replying i).1 _)
  | flushing phase => exact absurd phase (Ring.afterCqe_replying i).2
  | queued q among slot commits => exact .queued q among slot commits

/-- `handle_one` keeps the commit id of the request it handled, and only its slot. -/
theorem Answers.handle (conserved : Conserved cfg s) (answers : Answers s) {idx : UInt32}
    (handling : s.phase = .handling idx) : Answers (s.handle cfg idx) := by
  refine answers.congr rfl rfl rfl fun i id expects => ?_
  cases expects with
  | landed c member slot success =>
    -- A completed slot is not the one in hand.
    have away : i ≠ idx := by
      rintro rfl
      have apart := conserved.nodup
      have landed : makeUd i ∈ s.cqTokens := List.mem_map.mpr ⟨c, member, slot⟩
      simp only [Ring.tokens, List.nodup_append, handling, Phase.hand] at apart
      exact apart.2.1.2.1.2.2 _ landed _ List.mem_cons_self rfl
    have same : (s.handle cfg idx).slots i = s.slots i := Function.update_of_ne away _ _
    rw [same]
    exact .landed c member slot success
  | handling phase => cases phase
  | committing phase =>
    cases phase
    have kept : ((s.handle cfg idx).slots idx).entry.commitId =
        Ring.commitIdIn (s.slots idx).buf := by
      simp only [Ring.handle, Function.update_self]
      exact handleOne_commitId cfg.fs (s.worldOf idx) cfg.opts cfg.payloadBytes _
    rw [kept]
    exact .handling handling
  | flushing phase => cases phase
  | queued q member slot commits => exact .queued q member slot commits

/-- The next entry: a REGISTER answers nothing, a commit what was expected. -/
theorem Answers.queue (answers : Answers s) {idx : UInt32} {q : Sqe} (ignored : Bool)
    (slot : q.userData = makeUd idx)
    (expected : ∀ id, q.cmd = .commitAndFetch id → s.Expects idx id) :
    Answers (s.queue q (.submitting ignored)) := by
  refine answers.congr rfl rfl rfl fun i id expects => ?_
  cases expects with
  | landed c member ud success => exact .landed c member ud success
  | handling phase | committing phase | flushing phase => cases phase
  | queued p member ud commits =>
    rcases List.mem_append.mp member with old | new
    · exact .queued p old ud commits
    · obtain rfl := List.mem_singleton.mp new
      obtain rfl : idx = i := makeUd_injective (slot.symm.trans ud)
      exact expected id commits

theorem Phase.Submits.goes {p p' : Phase} (submits : p.Submits p') :
    p' = .waiting ∨ p' = .exited .submitFailed ∨
      ∃ idx, p = .flushing idx ∧ p' = .committing idx true := by
  cases submits with
  | done => exact .inl rfl
  | failed => exact .inr (.inl rfl)
  | flushed idx => exact .inr (.inr ⟨idx, rfl, rfl⟩)

/-- Going back to the head of the loop, or leaving it. -/
theorem Answers.goOn (answers : Answers s) {phase : Phase} (ec : Int32)
    (goes : phase = .waiting ∨ ∃ why, phase = .exited why) :
    Answers { s with phase := phase, ec := ec } := by
  refine answers.congr rfl rfl rfl fun i id expects => ?_
  cases expects with
  | landed c member ud success => exact .landed c member ud success
  | handling here | committing here | flushing here =>
    rcases goes with rfl | ⟨why, rfl⟩ <;> cases here
  | queued q member ud commits => exact .queued q member ud commits

/-- Trying again for the same reply. -/
theorem Answers.retry (answers : Answers s) (ec : Int32) {idx : UInt32}
    (flushing : s.phase = .flushing idx) :
    Answers { s with phase := .committing idx true, ec := ec } := by
  refine answers.congr rfl rfl rfl fun i id expects => ?_
  cases expects with
  | landed c member ud success => exact .landed c member ud success
  | handling here => cases here
  | committing here =>
    cases here
    exact .flushing flushing
  | flushing here => cases here
  | queued q member ud commits => exact .queued q member ud commits

theorem Answers.step (conserved : Conserved cfg s) (answers : Answers s) {s' : Ring σ}
    (step : Ring.Step cfg s s') : Answers s' := by
  cases step with
  | complete before q after res contents held =>
    exact answers.complete conserved res contents held
  | interfere daemon initDone =>
    refine answers.congr rfl rfl rfl fun i id expects => ?_
    exact expects.transfer (fun _ member => member) (fun _ member _ => member) rfl rfl
  | idle => exact answers
  | leave ec waits => exact answers.goOn ec (.inr ⟨_, rfl⟩)
  | take c rest waits first => exact answers.take conserved first
  | handle idx landed => exact answers.handle conserved landed
  | rearm idx wants =>
    refine answers.queue true rfl fun id commits => ?_
    simp [prepRegister] at commits
  | commit idx retried wants =>
    refine answers.queue false rfl fun id commits => ?_
    obtain rfl : (s.slots idx).entry.commitId = id := by
      simpa [prepCommitAndFetch] using commits
    exact .committing wants
  | stuck idx phase ec wants misses full =>
    exact absurd (conserved.sq_room wants.hand) (Nat.not_lt.mpr full)
  | submit n phase ec submits =>
    have consumed := answers.consume conserved n
    rcases submits.goes with rfl | rfl | ⟨idx, flushing, rfl⟩
    · exact consumed.goOn ec (.inl rfl)
    · exact consumed.goOn ec (.inr ⟨_, rfl⟩)
    · exact consumed.retry ec (by rw [Ring.consume_phase]; exact flushing)

theorem Answers.armed (daemon : σ) (initDone : Bool) :
    Answers (Ring.armed cfg daemon initDone) := by
  constructor
  · intro i n current
    cases current
  · intro i j n current
    cases current
  · intro i id expects
    cases expects with
    | landed c member => cases member
    | handling phase | committing phase | flushing phase => cases phase
    | queued q member slot commits =>
      simp only [Ring.armed, List.mem_cons, List.mem_map] at member
      rcases member with rfl | ⟨i, -, rfl⟩
      · cases commits
      · cases commits
  · intro p committed
    cases committed
  · exact List.nodup_nil

end Requests

/-! ### Runs -/

section Runs

variable {σ : Type} {cfg : RingConfig σ} {s : Ring σ}

/-- The loop is not left for want of a submission queue entry. -/
theorem not_sqFull_step (conserved : Conserved cfg s) {s' : Ring σ} (step : Ring.Step cfg s s')
    (running : ∀ i, s.phase ≠ .exited (.sqFull i)) (i : UInt32) :
    s'.phase ≠ .exited (.sqFull i) := by
  cases step with
  | complete before q after res contents held =>
    rw [Ring.complete_phase]
    exact running i
  | interfere daemon initDone => exact running i
  | idle => exact running i
  | leave ec waits => simp
  | take c rest waits first => exact Ring.afterCqe_not_sqFull i
  | handle idx landed => simp [Ring.handle]
  | rearm idx wants => simp [Ring.queue]
  | commit idx retried wants => simp [Ring.queue]
  | stuck idx phase ec wants misses full =>
    exact absurd (conserved.sq_room wants.hand) (Nat.not_lt.mpr full)
  | submit n phase ec submits =>
    rcases submits.goes with rfl | rfl | ⟨idx, -, rfl⟩ <;> simp

/-- All three invariants hold along every run. -/
theorem reachable_invariant (reachable : (ringMachine cfg).Reachable s) :
    Conserved cfg s ∧ Answers s ∧ ∀ i, s.phase ≠ .exited (.sqFull i) := by
  refine reachable.invariant (fun v => Conserved cfg v ∧ Answers v ∧
    ∀ i, v.phase ≠ .exited (.sqFull i)) ?_ ?_
  · rintro _ ⟨daemon, initDone, consumed, rfl⟩
    have armed : Conserved cfg (Ring.armed cfg daemon initDone) := .armed daemon initDone
    refine ⟨armed.consume consumed, (Answers.armed daemon initDone).consume armed consumed, ?_⟩
    intro i
    rw [Ring.start, Ring.consume_phase]
    simp [Ring.armed]
  · rintro v a v' - ⟨conserved, answers, running⟩ taken
    have step := Ring.next_step taken
    exact ⟨conserved.step step, answers.step conserved step,
      not_sqFull_step conserved step running⟩

/-- The safety of one state of a worker. -/
structure SlotsSafe (cfg : RingConfig σ) (s : Ring σ) : Prop where
  /-- every slot is in one place, once -/
  in_one_place : ∀ i, i < cfg.depth →
    s.sqTokens.count (makeUd i) + s.kernelTokens.count (makeUd i) + s.cqTokens.count (makeUd i) +
      s.phase.hand.count (makeUd i) = 1
  /-- `io_uring_get_sqe` does not give null -/
  never_null : s.next cfg .getSqeNull = none
  not_sqFull : ∀ i, s.phase ≠ .exited (.sqFull i)
  /-- no completion is beyond `entries_` -/
  in_range : ∀ c ∈ s.cq, c.userData ≠ kStopSentinel → c.userData.toUInt32 < cfg.depth
  /-- `handle_one` works on a slot the kernel does not hold, and on no other -/
  touches : ∀ i, s.phase = .handling i →
    makeUd i ∉ s.kernelTokens ∧ ∀ j, j ≠ i → (s.handle cfg i).slots j = s.slots j
  committed_once : (s.committed.map Prod.fst).Nodup
  committed_own : ∀ p ∈ s.committed, s.delivered[p.1]? = some p.2

theorem Conserved.in_one_place (conserved : Conserved cfg s) {i : UInt32} (below : i < cfg.depth) :
    s.sqTokens.count (makeUd i) + s.kernelTokens.count (makeUd i) + s.cqTokens.count (makeUd i) +
      s.phase.hand.count (makeUd i) = 1 := by
  have member : makeUd i ∈ cfg.tokens := by
    rw [mem_tokens_iff, makeUd_toNat]
    exact .inr below
  have once := List.count_eq_one_of_mem conserved.nodup (conserved.tokens.mem_iff.mpr member)
  simp only [Ring.tokens, List.count_append] at once
  omega

theorem Conserved.never_null (conserved : Conserved cfg s) : s.next cfg .getSqeNull = none := by
  cases taken : s.next cfg .getSqeNull with
  | none => rfl
  | some s' =>
    obtain ⟨idx, -, -, wants, -, full, -⟩ := Ring.next_getSqeNull taken
    exact absurd (conserved.sq_room wants.hand) (Nat.not_lt.mpr full)

theorem Conserved.in_range (conserved : Conserved cfg s) {c : Cqe} (member : c ∈ s.cq)
    (slot : c.userData ≠ kStopSentinel) : c.userData.toUInt32 < cfg.depth := by
  have token : c.userData ∈ s.tokens := by
    apply List.mem_append_right
    apply List.mem_append_right
    apply List.mem_append_left
    exact List.mem_map_of_mem member
  have below := (conserved.known token).resolve_left slot
  rw [conserved.slot_name token slot, makeUd_toNat] at below
  exact below

theorem Conserved.touches (conserved : Conserved cfg s) {i : UInt32}
    (handling : s.phase = .handling i) :
    makeUd i ∉ s.kernelTokens ∧ ∀ j, j ≠ i → (s.handle cfg i).slots j = s.slots j := by
  constructor
  · intro held
    have apart := conserved.nodup
    simp only [Ring.tokens, List.nodup_append, handling, Phase.hand, List.mem_append] at apart
    exact apart.2.1.2.2 _ held _ (.inr List.mem_cons_self) rfl
  · intro j away
    exact Function.update_of_ne away _ _

/-- No slot is ever lost, duplicated or answered twice. -/
theorem ring_conserves_slots (cfg : RingConfig σ) (s : Ring σ)
    (reachable : (ringMachine cfg).Reachable s) : SlotsSafe cfg s := by
  obtain ⟨conserved, answers, running⟩ := reachable_invariant reachable
  constructor
  · intro i below
    exact conserved.in_one_place below
  · exact conserved.never_null
  · exact running
  · intro c member slot
    exact conserved.in_range member slot
  · intro i handling
    exact conserved.touches handling
  · exact answers.once
  · exact answers.own

end Runs

/-- A ring of two slots. -/
def twoSlots : RingConfig Unit where
  fs := Filesystem.leading 9
  opts := {}
  payloadBytes := 4096
  depth := 2
  capacity := 4
  room := by decide

/-- A LOOKUP_ROOT in a slot, under a commit id. -/
def lookupRootIn (commitId : UInt64) : Memory :=
  Memory.write (Memory.write (fun _ => 0) 0
      (FuseInHeader.codec.enc { len := 40, opcode := Opcode.lookupRoot.code })) ringEntOff
    (FuseUringEntInOut.codec.enc { commitId := commitId })

/-- Slot 0 gets a request while slot 1 is interrupted; the reply is committed, and the submit
that was to register slot 1 again fails. A second request in slot 0 is committed with the same
submit that makes up for it. -/
def busyRing : List (RingAction Unit) :=
  [.complete 1 0 (lookupRootIn 77), .complete 1 (-Errno.eintr) (fun _ => 0), .waitReturns,
    .handleOne, .getSqe, .submit 1, .waitReturns, .getSqe, .submitFails (-Errno.eagain),
    .complete 1 0 (lookupRootIn 78), .waitReturns, .handleOne, .getSqe, .submit 2]

theorem ring_conserves_slots_busy :
    ∃ s, (ringMachine twoSlots).exec (Ring.start twoSlots () false 3) busyRing = some s ∧
      s.delivered = [77, 78] ∧ s.committed = [(0, 77), (1, 78)] ∧
      s.kernelTokens = [kStopSentinel, makeUd 1, makeUd 0] ∧ SlotsSafe twoSlots s := by
  have ran : ((ringMachine twoSlots).exec (Ring.start twoSlots () false 3) busyRing).map
      (fun s => (s.delivered, s.committed, s.kernelTokens)) =
        some ([77, 78], [(0, 77), (1, 78)], [kStopSentinel, makeUd 1, makeUd 0]) := by
    decide +kernel
  obtain ⟨s, ends, is⟩ := Option.map_eq_some_iff.mp ran
  simp only [Prod.mk.injEq] at is
  have started : (ringMachine twoSlots).Reachable (Ring.start twoSlots () false 3) :=
    .start ⟨(), false, 3, rfl⟩
  have reachable := started.exec busyRing (fun _ _ _ => trivial) ends
  exact ⟨s, ends, is.1, is.2.1, is.2.2, ring_conserves_slots twoSlots s reachable⟩

end Fex
