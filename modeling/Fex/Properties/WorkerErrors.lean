import Fex.Properties.Unwinding

/-!
# Whether a worker's error ends the session

## Main result

`worker_error_told`: in every run in which a worker fails only as the last one in its loop
or once a `stop()` has been completed, `run()` never waits for a running worker that nobody
has told to stop while another has failed. `worker_error_untold` is a run of two workers in
which the second fails on its own: its error stays in its `ec_`, and `run()` waits for the
first.

## Proof strategy

The invariant `ErrorInv`: where a worker has failed, all of them have left, or the eventfd
has been written, or `run()` is on its way to write it (`Control.Told`). That a completed
`stop()` has written is the account of `StopInv`, which holds as no `stop()` comes before
the first worker; that no worker is launched behind one that failed as the last is seen
from the place of `run()`.
-/
namespace Fex

open Foundation Machine

/-- Some worker has left its loop with an error. -/
def Session.HasFailed (s : Session) : Prop := ∃ w ∈ s.workers, w.pc = .left .failed

/-- `run()` waits for a running worker while another has failed, and the workers have
been told neither by the eventfd nor by the end of the device. -/
structure Session.Untold (s : Session) : Prop where
  installed : s.mountInstalled = true
  failed : s.HasFailed
  waits : s.JoinsRunning
  unwritten : ¬s.Written
  devOpen : s.devOpen = true

def WorkerPc.hasLeft : WorkerPc → Bool
  | .left _ => true
  | .started | .waiting | .handling | .committing => false

/-- Every worker but `q` has left its loop. -/
def Session.LastIn (s : Session) (q : Nat) : Prop :=
  ∀ p (inside : p < s.workers.length), p ≠ q → s.workers[p].pc.hasLeft = true

instance (s : Session) (q : Nat) : Decidable (s.LastIn q) :=
  inferInstanceAs (Decidable (∀ p (_ : p < s.workers.length), _))

/-- A worker leaves with an error only as the last one in its loop, or once the session is
to stop and every call of `stop()` has returned; and `stop()` is not called before there is
a worker. -/
def FailsLate (s : Session) : SessionAction → Prop
  | .exit q .failed => s.LastIn q ∨ s.stopping = true ∧ s.stored = 0 ∧ s.checked = 0
  | .stopStore => s.workers ≠ []
  | _ => True

instance (s : Session) (a : SessionAction) : Decidable (FailsLate s a) :=
  match a with
  | .exit _ .failed => inferInstanceAs (Decidable (_ ∨ _))
  | .stopStore => inferInstanceAs (Decidable (s.workers ≠ []))
  | .exit _ .stopped | .exit _ .gone | .main _ | .mounter _ | .send _ | .deliver _ | .take _
  | .rearm _ | .badIndex _ | .handle .. | .commit _ | .stopCheck | .stopWrite
  | .disconnect => .isTrue trivial

/-! ### Who tells the workers -/

/-- The eventfd has been written, or `run()` is going to write it. -/
def Control.Told (s : Control) : Prop :=
  s.Written ∨ s.main.stops = true ∨ s.mountEc = true ∧ s.main.awaitsMount = true

section Told

variable {c : Control} {s s' : Session} {nqueues : Nat} {ok : Bool}

/-- Once every call of `stop()` has returned, the account is `run()`'s alone. -/
theorem StopInv.told (inv : StopInv c) (set : c.stopping = true) (stored : c.stored = 0)
    (checked : c.checked = 0) : c.Told := by
  rcases inv.announced set with written | pending | pending | stops | awaits
  · exact .inl written
  · omega
  · omega
  · exact .inr (.inl stops)
  · exact .inr (.inr awaits)

theorem Control.Written.bump {c : Control} (written : c.Written) :
    ∃ count, c.stopEfd.map (· + 1) = some (count + 1) := by
  obtain ⟨count, is⟩ := written
  exact Control.Written.map (by rw [is]; nofun)

/-- From a calm place `run()` goes on with the eventfd written. -/
theorem Control.Told.calm (told : c.Told) (calm : c.main.Calm) : c.Written := by
  rcases told with written | stops | ⟨-, awaits⟩
  · exact written
  · rw [calm.1] at stops
    cases stops
  · rw [calm.2] at awaits
    cases awaits

theorem Control.Told.jumps {pc : MainPc} (told : s.Told) (inv : StopInv s.toControl)
    (jump : s.Jump nqueues pc) : (s.setMain pc).Told := by
  cases jump with
  | mounterJoined here =>
    rcases told with written | stops | ⟨failed, -⟩
    · exact .inl written
    · rw [here] at stops
      cases stops
    · exact .inr (.inr ⟨failed, rfl⟩)
  | mountFailed here failed => exact .inr (.inr ⟨failed, rfl⟩)
  | mountDone here done =>
    rcases told with written | stops | ⟨failed, -⟩
    · exact .inl written
    · rw [here] at stops
      cases stops
    · rw [done] at failed
      cases failed
  | efdFound => exact .inr (.inl rfl)
  | efdMissing why here efd => exact absurd efd (inv.created (here ▸ rfl))
  | opened here | startFailed here | staffed here | allLaunched _ here | stopSeen here
  | goesOn here | initSeen here | initMissing here | skipped _ _ _ here | allJoined _ here
  | allDown _ here | notInstalled here => exact .inl (told.calm (here ▸ ⟨rfl, rfl⟩))

theorem Control.Told.main (told : s.Told) (inv : StopInv s.toControl)
    (step : s.MainStep nqueues s') : s'.Told := by
  cases step with
  | jumps pc jump => exact told.jumps inv jump
  | givesUp why here =>
    refine .inl (told.calm ?_)
    rcases here with here | here | here <;> exact here ▸ ⟨rfl, rfl⟩
  | makesEfd here =>
    -- An eventfd that does not exist is not written.
    obtain ⟨count, written⟩ := told.calm (here ▸ ⟨rfl, rfl⟩)
    rw [inv.fresh (.inr here)] at written
    cases written
  | starts => exact told
  | stores => exact .inr (.inl rfl)
  | writes why here => exact .inl (Control.Written.map (inv.created (here ▸ rfl)))
  | acquires here | launches _ here | spawns here | joins _ _ _ _ here | returns _ _ _ here
  | destroys here | tearsDown _ here | closes here | umounts here =>
    exact .inl (told.calm (here ▸ ⟨rfl, rfl⟩))

theorem Control.Told.mounter (told : s.Told) (step : s.MounterStep ok s') : s'.Told := by
  cases step with
  | created | mounts | moves | finishes => exact told
  | fails =>
    rcases told with written | stops | ⟨-, awaits⟩
    · exact .inl written
    · exact .inr (.inl stops)
    · exact .inr (.inr ⟨rfl, awaits⟩)

theorem Control.Told.call {a : SessionAction} (told : s.Told) (step : s.CallStep a s') :
    s'.Told := by
  cases step with
  | stores | finds | misses => exact told
  | writes =>
    rcases told with written | own
    · exact .inl written.bump
    · exact .inr own

end Told

/-! ### Workers that have left -/

def Session.AllLeft (s : Session) : Prop := ∀ w ∈ s.workers, w.pc.hasLeft = true

/-- Worker `q` has no thread yet. -/
def MainPc.Unlaunched : MainPc → Nat → Prop
  | .startWorkers, _ => True
  | .launch next, q => next ≤ q
  | _, _ => False

structure ErrorInv (s : Session) : Prop where
  stop : StopInv s.toControl
  /-- `stop()` and the workers come after the eventfd -/
  efd : s.workers ≠ [] ∨ 0 < s.stored → s.stopEfd ≠ none
  unlaunched : ∀ (q : Nat) (w : Worker), s.main.Unlaunched q → s.workers[q]? = some w →
    w.pc = .started
  told : s.HasFailed → s.AllLeft ∨ s.Told

theorem errorInv_initial : ErrorInv {} where
  stop := stopInv_initial
  efd was := by simp at was
  unlaunched _ _ early := by cases early
  told failed := by
    obtain ⟨w, member, -⟩ := failed
    cases member

section Steps

variable {s s' : Session} {nqueues : Nat} {a : SessionAction} {ok : Bool}

/-- A worker `run()` has just added or launched has not failed. -/
theorem Session.HasFailed.of_main (failed : s'.HasFailed) (step : s.MainStep nqueues s') :
    s.HasFailed := by
  obtain ⟨w, member, ended⟩ := failed
  cases step with
  | starts =>
    rcases mem_started member with old | new
    · exact ⟨w, old, ended⟩
    · rw [new] at ended
      cases ended
  | launches =>
    rcases mem_launched member with old | new
    · exact ⟨w, old, ended⟩
    · rw [new] at ended
      cases ended
  | jumps | givesUp | acquires | makesEfd | spawns | stores | writes | joins | returns | destroys
  | tearsDown | closes | umounts => exact ⟨w, member, ended⟩

/-- While there are workers without a thread, not all have left. -/
theorem ErrorInv.not_allLeft (inv : ErrorInv s) {q : Nat} {w : Worker}
    (early : s.main.Unlaunched q) (found : s.workers[q]? = some w) : ¬s.AllLeft := by
  intro all
  have left := all w (List.mem_of_getElem? found)
  rw [inv.unlaunched q w early found] at left
  cases left

/-- While workers are being started, none has failed. -/
theorem ErrorInv.none_failed (inv : ErrorInv s) (here : s.main = .startWorkers) :
    ¬s.HasFailed := by
  rintro ⟨w, member, ended⟩
  obtain ⟨q, found⟩ := List.mem_iff_getElem?.mp member
  rw [inv.unlaunched q w (here ▸ trivial) found] at ended
  cases ended

theorem ErrorInv.unlaunched_main (inv : ErrorInv s) (workers : WorkersInv s)
    (step : s.MainStep nqueues s') (q : Nat) (w : Worker) (early : s'.main.Unlaunched q)
    (found : s'.workers[q]? = some w) : w.pc = .started := by
  cases step with
  | jumps pc jump =>
    cases jump with
    | opened here =>
      have none : s.workers = [] := workers.fresh (here ▸ rfl)
      rw [show (s.setMain .startWorkers).workers = [] from none] at found
      cases found
    | staffed here => exact inv.unlaunched q w (here ▸ trivial) found
    | _ => cases early
  | starts here =>
    rcases mem_started (List.mem_of_getElem? found) with old | new
    · obtain ⟨p, present⟩ := List.mem_iff_getElem?.mp old
      exact inv.unlaunched p w (here ▸ trivial) present
    · exact new
  | launches next here =>
    -- The launched worker is in front of those that are left.
    have behind : next + 1 ≤ q := early
    have other : next ≠ q := by omega
    dsimp only at found
    rw [List.getElem?_modify_ne _ _ other] at found
    exact inv.unlaunched q w (here ▸ (Nat.le_of_succ_le behind)) found
  | givesUp | acquires | makesEfd | spawns | stores | writes | joins | returns | destroys
  | tearsDown | closes | umounts => cases early

theorem ErrorInv.main (inv : ErrorInv s) (workers : WorkersInv s)
    (step : s.MainStep nqueues s') : ErrorInv s' := by
  refine ⟨inv.stop.main step, ?_, inv.unlaunched_main workers step, ?_⟩
  · intro needs
    cases step with
    | starts here => exact inv.stop.created (here ▸ rfl)
    | launches next here => exact inv.stop.created (here ▸ rfl)
    | makesEfd => nofun
    | writes => simpa using inv.efd needs
    | jumps | givesUp | acquires | spawns | stores | joins | returns | destroys | tearsDown
    | closes | umounts => exact inv.efd needs
  · intro failed
    rcases inv.told (failed.of_main step) with all | told
    · left
      cases step with
      | starts here => exact absurd (failed.of_main (.starts here ‹_›)) (inv.none_failed here)
      | launches next here =>
        intro w member
        cases found : s.workers[next]? with
        | none =>
          have same : s.workers.modify next (fun w => { w with pc := .waiting }) = s.workers :=
            List.modify_eq_self (List.getElem?_eq_none_iff.mp found)
          dsimp only at member
          rw [same] at member
          exact all w member
        | some v =>
          -- All have left, but this one has no thread yet.
          exact absurd all (inv.not_allLeft (here ▸ Nat.le_refl next) found)
      | jumps | givesUp | acquires | makesEfd | spawns | stores | writes | joins | returns
      | destroys | tearsDown | closes | umounts => exact all
    · exact .inr (told.main inv.stop step)

/-- Workers that have no thread stay as they are. -/
theorem Session.Background.getElem? {q : Nat} {w : Worker} (background : s.Background a s')
    (found : s'.workers[q]? = some w)
    (idle : ∀ v, s.workers[q]? = some v → ¬v.pc.Running) : s.workers[q]? = some w := by
  obtain ⟨inside, -⟩ := List.getElem?_eq_some_iff.mp found
  rw [background.count] at inside
  have present : s.workers[q]? = some s.workers[q] := List.getElem?_eq_getElem inside
  rw [present, ← background.idle q _ present (idle _ present), found]

theorem WorkerPc.hasLeft.not_running {pc : WorkerPc} (left : pc.hasLeft = true) : ¬pc.Running := by
  rintro (rfl | rfl | rfl) <;> cases left

theorem Session.AllLeft.others (all : s.AllLeft) (background : s.Background a s') :
    s'.AllLeft := by
  intro w member
  obtain ⟨q, found⟩ := List.mem_iff_getElem?.mp member
  have before := background.getElem? found fun v present =>
    WorkerPc.hasLeft.not_running (all v (List.mem_of_getElem? present))
  exact all w (List.mem_of_getElem? before)

/-- A worker that fails as the last one leaves nobody in its loop. -/
theorem Session.LastIn.allLeft {q : Nat} {source : WorkerPc} {why : WorkerExit}
    (last : s.LastIn q) (moves : s.WorkerMoves s' q source (.left why)) : s'.AllLeft := by
  obtain ⟨v, ec, -, -, list⟩ := moves.moved
  intro w member
  obtain ⟨p, inside, rfl⟩ := List.mem_iff_getElem.mp member
  simp only [list, List.getElem_set]
  split
  · rfl
  next other =>
    rw [list, List.length_set] at inside
    exact last p inside (Ne.symm other)

/-- A worker that fails does so as the last one or after a completed `stop()`. -/
theorem ErrorInv.fails (inv : ErrorInv s) (allowed : FailsLate s a) (effect : s.Peripheral a s')
    (before : ¬s.HasFailed) (failed : s'.HasFailed) : s'.AllLeft ∨ s'.Told := by
  obtain ⟨w, member, ended⟩ := failed
  cases effect with
  | kernel control workers =>
    rw [workers] at member
    exact absurd ⟨w, member, ended⟩ before
  | works q source target moves running =>
    rcases moves.mem member with old | new
    · exact absurd ⟨w, old, ended⟩ before
    · -- A worker that moves on has not left.
      rw [← new, ended] at running
      rcases running with is | is | is <;> cases is
  | exits q source why moves permits =>
    rcases moves.mem member with old | new
    · exact absurd ⟨w, old, ended⟩ before
    · obtain rfl := WorkerPc.left.inj (new.symm.trans ended)
      rw [show a = .exit q .failed from permits] at allowed
      rcases allowed with last | ⟨set, stored, checked⟩
      · exact .inl (last.allLeft moves)
      · right
        rw [moves.control]
        exact inv.stop.told set stored checked

theorem ErrorInv.others (inv : ErrorInv s) (allowed : FailsLate s a) (effect : s.Peripheral a s')
    (background : s.Background a s') : ErrorInv s' := by
  have control := effect.control
  refine ⟨control ▸ inv.stop, ?_, ?_, ?_⟩
  · rw [control]
    rintro (some | stored)
    · refine inv.efd (.inl fun none => some ?_)
      apply List.eq_nil_of_length_eq_zero
      rw [background.count, none, List.length_nil]
    · exact inv.efd (.inr stored)
  · intro q w early found
    rw [control] at early
    have started (v : Worker) := inv.unlaunched q v early
    refine started w (background.getElem? found fun v present => ?_)
    rw [started v present]
    rintro (is | is | is) <;> cases is
  · intro failed
    by_cases before : s.HasFailed
    · rcases inv.told before with all | told
      · exact .inl (all.others background)
      · exact .inr (control ▸ told)
    · exact inv.fails allowed effect before failed

/-- Where the workers stay as they are, who was told is still told. -/
theorem ErrorInv.told_of_workers (inv : ErrorInv s) (same : s'.workers = s.workers)
    (kept : s.Told → s'.Told) (failed : s'.HasFailed) : s'.AllLeft ∨ s'.Told := by
  rw [Session.HasFailed, same] at failed
  rcases inv.told failed with all | told
  · left
    rwa [Session.AllLeft, same]
  · exact .inr (kept told)

theorem ErrorInv.mounter (inv : ErrorInv s) (step : s.MounterStep ok s') : ErrorInv s' := by
  refine ⟨inv.stop.mounter step, ?_, ?_, ?_⟩
  · cases step <;> exact inv.efd
  · cases step <;> exact inv.unlaunched
  · exact inv.told_of_workers (by cases step <;> rfl) fun told => told.mounter step

theorem ErrorInv.call (inv : ErrorInv s) (allowed : FailsLate s a) (step : s.CallStep a s')
    (taken : s.next nqueues a = some s') : ErrorInv s' := by
  -- A call that looks for the eventfd was begun when there was a worker.
  have late : StopAfterEfd s a := by
    rintro rfl
    obtain ⟨pending, -⟩ := Option.ite_none_left_eq_some.mp taken
    exact inv.efd (.inr (Nat.pos_of_ne_zero pending))
  refine ⟨inv.stop.step late taken, ?_, ?_, ?_⟩
  · cases step with
    | stores => exact fun _ => inv.efd (.inl allowed)
    | finds efd => exact fun _ => efd
    | misses efd => exact absurd efd (late rfl)
    | writes pending => exact fun _ => by simpa using inv.stop.writable pending
  · cases step <;> exact inv.unlaunched
  · exact inv.told_of_workers (by cases step <;> rfl) fun told => told.call step

theorem ErrorInv.step (allowed : FailsLate s a) (inv : ErrorInv s) (workers : WorkersInv s)
    (taken : s.next nqueues a = some s') : ErrorInv s' := by
  cases Session.next_step taken with
  | main ok step => exact inv.main workers step
  | mounter ok step => exact inv.mounter step
  | call step => exact inv.call allowed step taken
  | others effect background => exact inv.others allowed effect background

end Steps

/-! ### The main result -/

/-- Where a worker fails only as the last one or after a completed `stop()`, `run()` never
waits for a worker that has not been told. -/
theorem worker_error_told (nqueues : Nat) (s : Session)
    (reachable : (sessionMachine nqueues).ReachableBy FailsLate s) : ¬s.Untold := by
  have inv : UnwindInv s ∧ ErrorInv s :=
    reachable.invariant (fun s => UnwindInv s ∧ ErrorInv s)
      (fun v (initial : v = {}) => initial ▸ ⟨unwindInv_initial, errorInv_initial⟩)
      fun _ _ _ allowed inv taken => ⟨inv.1.step taken, inv.2.step allowed inv.1.workers taken⟩
  intro untold
  obtain ⟨why, q, w, here, found, running⟩ := untold.waits
  rcases inv.2.told untold.failed with all | told
  · exact WorkerPc.hasLeft.not_running (all w (List.mem_of_getElem? found)) running
  · exact untold.unwritten (told.calm (here ▸ ⟨rfl, rfl⟩))

/-- From the start to a mounted session with two workers, in which `run()` waits for the first. -/
def mountTwoActions : List SessionAction :=
  List.replicate 2 (.main true) ++ bootActions ++ mountActions ++ List.replicate 4 (.main true)

/-- The session in which worker 1 has failed and `run()` waits for worker 0. -/
def failedState (count : Nat) (stopping : Bool) : Session :=
  { main := .joinWorkers .drained 0
    mounter := .exited
    devOpen := true
    stopEfd := some count
    stopping := stopping
    mountInstalled := true
    workers := [{ pc := .waiting }, { pc := .left .failed, ec := true }]
    initDone := true
    answered := 3
    log := [.initSucceeded, .moved] }

theorem failedState_waits (count : Nat) (stopping : Bool) :
    (failedState count stopping).HasFailed ∧ (failedState count stopping).JoinsRunning :=
  ⟨⟨_, List.mem_cons_of_mem _ List.mem_cons_self, rfl⟩, .drained, 0, _, rfl, rfl, .inl rfl⟩

/-- Worker 1 fails after a `stop()` that worker 0 has not taken yet. -/
theorem worker_error_told_stopped :
    (failedState 1 true).HasFailed ∧ (failedState 1 true).JoinsRunning ∧
      ¬(failedState 1 true).Untold := by
  refine ⟨(failedState_waits 1 true).1, (failedState_waits 1 true).2, ?_⟩
  refine worker_error_told 2 _ (ReachableBy.execBy (.start rfl) (mountTwoActions ++
    [.stopStore, .stopCheck, .stopWrite, .exit 1 .failed]) ?_)
  rfl

/-- Worker 1 fails in a mounted session: nothing is written, `dev_fd` stays open, and
`run()` waits for worker 0 with no call of `stop()` on its way. -/
theorem worker_error_untold :
    ∃ s, (sessionMachine 2).Reachable s ∧ s.Untold ∧ s.stored = 0 ∧ s.checked = 0 := by
  refine ⟨failedState 0 false, ?_, ?_, rfl, rfl⟩
  · exact ReachableBy.exec (.start rfl) (mountTwoActions ++ [.exit 1 .failed])
      (fun _ _ _ => trivial) rfl
  · obtain ⟨failed, waits⟩ := failedState_waits 0 false
    exact ⟨rfl, failed, waits, by decide, rfl⟩

end Fex
