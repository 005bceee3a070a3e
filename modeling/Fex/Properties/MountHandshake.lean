import Fex.Properties.StopDelivery

/-!
# Whether the mount handshake can be stranded

## Main result

`handshake_not_stranded`: in every run in which, until `CMD_CREATE` has returned, no
`stop()` writes the eventfd and no worker meets an error, somebody is left to answer the
request the mounter waits for. `stop_strands_handshake` is a run in which a `stop()`
comes in between: the workers leave, and `CMD_CREATE` waits for ever.

## Proof strategy

The invariant `HandshakeInv`: until `CMD_CREATE` has returned, all workers are there,
the eventfd is unwritten, and as long as the connection is open no worker has left.
Each way out of the loop is then closed (`Session.Permits`).
-/
namespace Fex

open Foundation Machine

/-- `run()` has not got further than waiting for the mounter. -/
def MainPc.early : MainPc → Bool
  | .acquireDev | .makeEfd | .mountOpen | .startWorkers | .launch _ | .spawnMounter
  | .joinMounter => true
  | .checkMount | .checkStopping | .checkInit | .stopStore _ | .stopCheck _ | .stopWrite _
  | .joinWorkers .. | .destroy | .teardown _ | .guardClose | .guardUmount | .returned => false

/-- All workers have been started. -/
def MainPc.staffed : MainPc → Bool
  | .launch _ | .spawnMounter | .joinMounter => true
  | _ => false

theorem MainPc.early_of_staffed {pc : MainPc} (staffed : pc.staffed = true) :
    pc.early = true := by
  cases pc <;> first | rfl | cases staffed

/-- `CMD_CREATE` has not returned. -/
def MounterPc.Creating (pc : MounterPc) : Prop := pc = .unborn ∨ pc = .create

/-- The eventfd is unwritten and no worker has left its loop. -/
def Session.Armed (s : Session) : Prop :=
  ¬s.Written ∧ ∀ w ∈ s.workers, ∀ why, w.pc ≠ .left why

structure HandshakeInv (nqueues : Nat) (s : Session) : Prop where
  bounded : s.workers.length ≤ nqueues
  staffed : s.main.staffed = true → s.workers.length = nqueues
  unborn : s.main.early = true → s.main = .joinMounter ∨ s.mounter = .unborn
  armed : s.main.early = true → s.mounter.Creating → s.connected = true → s.Armed

theorem handshakeInv_initial (nqueues : Nat) : HandshakeInv nqueues {} where
  bounded := Nat.zero_le _
  staffed needs := by cases needs
  unborn _ := .inr rfl
  armed _ _ _ := ⟨nofun, nofun⟩

section Steps

variable {s s' : Session} {nqueues : Nat} {ok : Bool}

/-- Nothing is claimed of a `run()` that is past the mounter. -/
theorem handshakeInv_late (bounded : s.workers.length ≤ nqueues) (late : s.main.early = false) :
    HandshakeInv nqueues s where
  bounded := bounded
  staffed needs := by rw [MainPc.early_of_staffed needs] at late; cases late
  unborn early := by rw [late] at early; cases early
  armed early := by rw [late] at early; cases early

/-- A step of `run()` on its way to the mounter. -/
theorem HandshakeInv.advance (inv : HandshakeInv nqueues s) (early : s.main.early = true)
    (before : s.main ≠ .joinMounter)
    (mounter : s'.mounter = s.mounter ∨ s'.main = .joinMounter)
    (connected : s'.connected = s.connected) (bounded : s'.workers.length ≤ nqueues)
    (staffed : s'.main.staffed = true → s'.workers.length = nqueues)
    (armed : s.Armed → s'.Armed) : HandshakeInv nqueues s' := by
  have unborn : s.mounter = .unborn := (inv.unborn early).resolve_left before
  refine ⟨bounded, staffed, ?_, ?_⟩
  · intro _
    rcases mounter with same | waits
    · exact .inr (same.trans unborn)
    · exact .inl waits
  · intro _ _ unclosed
    exact armed (inv.armed early (.inl unborn) (connected ▸ unclosed))

/-- A worker that was just started or launched has not left. -/
theorem present_of_append {workers : List Worker}
    (present : ∀ w ∈ workers, ∀ why, w.pc ≠ .left why) :
    ∀ w ∈ workers ++ [({} : Worker)], ∀ why, w.pc ≠ .left why := by
  intro w member
  rcases mem_started member with old | new
  · exact present w old
  · rw [new]
    nofun

theorem present_of_modify {workers : List Worker}
    (present : ∀ w ∈ workers, ∀ why, w.pc ≠ .left why) (q : Nat) :
    ∀ w ∈ workers.modify q fun w => { w with pc := .waiting }, ∀ why, w.pc ≠ .left why := by
  intro w member
  rcases mem_launched member with old | new
  · exact present w old
  · rw [new]
    nofun

theorem HandshakeInv.jumps {pc : MainPc} (inv : HandshakeInv nqueues s)
    (jump : s.Jump nqueues pc) : HandshakeInv nqueues (s.setMain pc) := by
  cases jump with
  | opened here =>
    exact inv.advance (here ▸ rfl) (by rw [here]; nofun) (.inl rfl) rfl inv.bounded nofun id
  | staffed here all =>
    have full : s.workers.length = nqueues := Nat.le_antisymm inv.bounded all
    exact inv.advance (here ▸ rfl) (by rw [here]; nofun) (.inl rfl) rfl inv.bounded
      (fun _ => full) id
  | allLaunched _ here =>
    have full := inv.staffed (here ▸ rfl)
    exact inv.advance (here ▸ rfl) (by rw [here]; nofun) (.inl rfl) rfl inv.bounded
      (fun _ => full) id
  | startFailed | mounterJoined | mountFailed | mountDone | stopSeen | goesOn | initSeen
  | initMissing | efdFound | efdMissing | skipped | allJoined | allDown | notInstalled =>
    exact handshakeInv_late inv.bounded rfl

theorem HandshakeInv.main (inv : HandshakeInv nqueues s) (step : s.MainStep nqueues s') :
    HandshakeInv nqueues s' := by
  cases step with
  | jumps pc jump => exact inv.jumps jump
  | acquires here =>
    exact inv.advance (here ▸ rfl) (by rw [here]; nofun) (.inl rfl) rfl inv.bounded nofun id
  | makesEfd here =>
    refine inv.advance (here ▸ rfl) (by rw [here]; nofun) (.inl rfl) rfl inv.bounded nofun ?_
    refine fun armed => ⟨?_, armed.2⟩
    -- The counter starts at 0.
    rintro ⟨count, written⟩
    cases written
  | starts here more =>
    refine inv.advance (here ▸ rfl) (by rw [here]; nofun) (.inl rfl) rfl ?_ ?_
      fun armed => ⟨armed.1, present_of_append armed.2⟩
    · rw [List.length_append]
      exact more
    · intro staffed
      rw [here] at staffed
      cases staffed
  | launches q here =>
    have full := inv.staffed (here ▸ rfl)
    refine inv.advance (here ▸ rfl) (by rw [here]; nofun) (.inl rfl) rfl ?_ (fun _ => ?_)
      fun armed => ⟨armed.1, present_of_modify armed.2 q⟩
    · simpa using inv.bounded
    · simpa using full
  | spawns here =>
    have full := inv.staffed (here ▸ rfl)
    exact inv.advance (here ▸ rfl) (by rw [here]; nofun) (.inr rfl) rfl inv.bounded
      (fun _ => full) id
  | givesUp | stores | writes | joins | returns | destroys | tearsDown | closes | umounts =>
    exact handshakeInv_late inv.bounded rfl

theorem HandshakeInv.mounter (inv : HandshakeInv nqueues s) (step : s.MounterStep ok s') :
    HandshakeInv nqueues s' := by
  have born : s.mounter ≠ .unborn := by
    intro is
    have active := step.active
    rw [is] at active
    cases active
  -- Whatever the mounter does, `CMD_CREATE` has returned then.
  obtain ⟨main, workers, created⟩ : s'.main = s.main ∧ s'.workers = s.workers ∧
      ¬s'.mounter.Creating := by
    cases step <;> exact ⟨rfl, rfl, by rintro (is | is) <;> cases is⟩
  refine ⟨workers ▸ inv.bounded, ?_, ?_, fun _ creating => absurd creating created⟩
  · rw [main, workers]
    exact inv.staffed
  · intro early
    rw [main] at early ⊢
    -- There is a mounter, so `run()` waits for it.
    exact .inl ((inv.unborn early).resolve_right born)

/-- A step that keeps the places of `run()` and the mounter and the number of workers. -/
theorem HandshakeInv.keeps (inv : HandshakeInv nqueues s) (main : s'.main = s.main)
    (mounter : s'.mounter = s.mounter) (count : s'.workers.length = s.workers.length)
    (armed : s.mounter.Creating → s'.connected = true → s.connected = true ∧ (s.Armed → s'.Armed)) :
    HandshakeInv nqueues s' := by
  refine ⟨count ▸ inv.bounded, ?_, ?_, ?_⟩
  · rw [main, count]
    exact inv.staffed
  · rw [main, mounter]
    exact inv.unborn
  · intro early creating unclosed
    rw [main] at early
    rw [mounter] at creating
    obtain ⟨before, keeps⟩ := armed creating unclosed
    exact keeps (inv.armed early creating before)

end Steps

/-! ### The main result -/

/-- Until `CMD_CREATE` has returned, no `stop()` writes the eventfd and no worker leaves
with an error. -/
def UndisturbedMount (s : Session) (a : SessionAction) : Prop :=
  s.mounter.Creating → a ≠ .stopWrite ∧ ∀ q, a ≠ .exit q .failed

theorem HandshakeInv.peripheral {nqueues : Nat} {s s' : Session} {a : SessionAction}
    (allowed : UndisturbedMount s a) (inv : HandshakeInv nqueues s)
    (step : s.Peripheral a s') : HandshakeInv nqueues s' := by
  have control := step.control
  have main : s'.main = s.main := congrArg Control.main control
  have mounter : s'.mounter = s.mounter := congrArg Control.mounter control
  have efd : s'.Written ↔ s.Written := by rw [Control.Written, Control.Written, control]
  cases step with
  | kernel control workers closes =>
    refine inv.keeps main mounter (by rw [workers]) fun _ unclosed => ⟨closes unclosed, ?_⟩
    exact fun armed => ⟨mt efd.mp armed.1, workers ▸ armed.2⟩
  | works q source target moves running =>
    refine inv.keeps main mounter moves.count fun _ unclosed =>
      ⟨moves.connected ▸ unclosed, fun armed => ⟨mt efd.mp armed.1, ?_⟩⟩
    intro w member why
    rcases moves.mem member with old | new
    · exact armed.2 w old why
    · rw [new]
      rintro rfl
      rcases running with is | is | is <;> cases is
  | exits q source why moves permits =>
    refine inv.keeps main mounter moves.count fun creating unclosed =>
      ⟨moves.connected ▸ unclosed, fun armed => ?_⟩
    -- No way out of the loop is open.
    cases why with
    | stopped => exact absurd permits armed.1
    | gone =>
      have closed : s.connected = false := permits
      rw [moves.connected, closed] at unclosed
      cases unclosed
    | failed =>
      exact absurd permits ((allowed creating).2 q)

theorem HandshakeInv.step {nqueues : Nat} {s s' : Session} {a : SessionAction}
    (allowed : UndisturbedMount s a) (inv : HandshakeInv nqueues s)
    (taken : s.next nqueues a = some s') : HandshakeInv nqueues s' := by
  cases Session.next_step taken with
  | main ok step => exact inv.main step
  | mounter ok step => exact inv.mounter step
  | call step =>
    cases step with
    | stores | finds | misses => exact inv.keeps rfl rfl rfl fun _ unclosed => ⟨unclosed, id⟩
    | writes => exact inv.keeps rfl rfl rfl fun creating => absurd rfl (allowed creating).1
  | others effect => exact inv.peripheral allowed effect

/-- `run()` waits for the mounter, the mounter inside `CMD_CREATE` for a reply over a
connection that is open, and every worker has left its loop. -/
structure Session.Stranded (s : Session) : Prop where
  main : s.main = .joinMounter
  mounter : s.mounter = .create
  unanswered : s.outstanding ≠ none
  connected : s.connected = true
  left : ∀ w ∈ s.workers, ∃ why, w.pc = .left why
  devOpen : s.devOpen = true

/-- A mount that is not disturbed is not stranded. -/
theorem handshake_not_stranded (uringQueues hardwareConcurrency : Nat) (s : Session)
    (reachable : (sessionMachine (nqueues uringQueues hardwareConcurrency)).ReachableBy
      UndisturbedMount s) : ¬s.Stranded := by
  have inv : HandshakeInv (nqueues uringQueues hardwareConcurrency) s :=
    reachable.invariant (HandshakeInv _) (fun s initial => initial ▸ handshakeInv_initial _)
      fun s a s' allowed inv taken => inv.step allowed taken
  rintro ⟨main, mounter, -, connected, left, -⟩
  have armed := inv.armed (main ▸ rfl) (.inr mounter) connected
  have count := inv.staffed (main ▸ rfl)
  have positive : 0 < s.workers.length := count ▸ nqueues_pos _ _
  obtain ⟨why, gone⟩ := left _ (List.getElem_mem positive)
  exact armed.2 _ (List.getElem_mem positive) why gone

/-- The session in which INIT was sent to worker 0 and not taken. -/
def initSent : Session :=
  { main := .joinMounter
    mounter := .create
    devOpen := true
    stopEfd := some 0
    workers := [{ pc := .waiting }]
    outstanding := some ⟨0, false⟩ }

theorem handshake_not_stranded_init :
    initSent.outstanding ≠ none ∧ initSent.mounter = .create ∧ ¬initSent.Stranded := by
  have reachable : (sessionMachine (nqueues 1 0)).ReachableBy UndisturbedMount initSent := by
    refine ReachableBy.exec (.start rfl) (bootActions ++ [.send 0]) ?_ rfl
    intro v a member _
    constructor
    · rintro rfl
      exact absurd member (by decide)
    · rintro q rfl
      simp [bootActions] at member
  exact ⟨nofun, rfl, handshake_not_stranded 1 0 initSent reachable⟩

/-! ### Stranded for ever -/

section Stranded

variable {s s' : Session}

/-- No worker is left to do anything. -/
theorem Session.Stranded.move_eq_none (stranded : s.Stranded) (q : Nat) {source target : WorkerPc}
    (running : source.Running) (fails : Bool) : s.move q source target fails = none := by
  unfold Session.move
  cases found : s.workers[q]? with
  | none => rfl
  | some w =>
    obtain ⟨why, left⟩ := stranded.left w (List.mem_of_getElem? found)
    refine if_neg ?_
    rw [left]
    rintro rfl
    rcases running with is | is | is <;> cases is

/-- Only closing the connection gets the session out of there. -/
theorem Session.Stranded.stays {nqueues : Nat} {a : SessionAction} (stranded : s.Stranded)
    (unclosed : a ≠ .disconnect) (taken : s.next nqueues a = some s') : s'.Stranded := by
  have waiting (q : Nat) (target : WorkerPc) (fails : Bool) :
      s.move q .waiting target fails = none := stranded.move_eq_none q (.inl rfl) fails
  have handling (q : Nat) (target : WorkerPc) : s.move q .handling target = none :=
    stranded.move_eq_none q (.inr (.inl rfl)) false
  have committing (q : Nat) (target : WorkerPc) (fails : Bool) :
      s.move q .committing target fails = none := stranded.move_eq_none q (.inr (.inr rfl)) fails
  obtain ⟨main, mounter, unanswered, connected, left, devOpen⟩ := stranded
  cases a with
  | main ok => simp [Session.next, Session.mainNext, main, mounter] at taken
  | mounter ok =>
    cases ok <;>
      simp [Session.next, Session.mounterNext, mounter, unanswered, connected] at taken
  | send q => simp [Session.next, unanswered] at taken
  | deliver | take | rearm | badIndex => simp [Session.next, waiting] at taken
  | handle => simp [Session.next, handling] at taken
  | commit => simp [Session.next, committing] at taken
  | exit q why => cases why <;> simp [Session.next, Session.exitNext, waiting, committing] at taken
  | stopStore =>
    cases taken
    exact ⟨main, mounter, unanswered, connected, left, devOpen⟩
  | stopCheck =>
    obtain ⟨-, taken⟩ := Option.ite_none_left_eq_some.mp taken
    split at taken
    all_goals
      cases taken
      exact ⟨main, mounter, unanswered, connected, left, devOpen⟩
  | stopWrite =>
    obtain ⟨-, taken⟩ := Option.ite_none_left_eq_some.mp taken
    cases taken
    exact ⟨main, mounter, unanswered, connected, left, devOpen⟩
  | disconnect => exact absurd rfl unclosed

end Stranded

/-- A `stop()` while INIT is on its way: the worker leaves on the stop poll, and nothing
but the connection's end ever gets `run()` going again. -/
theorem stop_strands_handshake :
    ∃ s, (sessionMachine (nqueues 1 0)).Reachable s ∧ s.Stranded ∧
      ∀ a s', a ≠ .disconnect → s.next (nqueues 1 0) a = some s' → s'.Stranded := by
  let s : Session := { initSent with
    stopping := true
    stopEfd := some 1
    workers := [{ pc := .left .stopped }] }
  have stranded : s.Stranded := by
    refine ⟨rfl, rfl, nofun, rfl, ?_, rfl⟩
    intro w member
    rw [List.mem_singleton.mp member]
    exact ⟨.stopped, rfl⟩
  refine ⟨s, ?_, stranded, fun a s' unclosed taken => stranded.stays unclosed taken⟩
  exact ReachableBy.exec (.start rfl)
    (bootActions ++ [.send 0, .stopStore, .stopCheck, .stopWrite, .exit 0 .stopped])
    (fun _ _ _ => trivial) rfl

end Fex
