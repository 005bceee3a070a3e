import Fex.SessionSteps

/-!
# Whether a stop request reaches the workers

## Main result

`stop_reaches_workers`: in every run in which no call of `stop()` looks for the stop
eventfd before `run()` has created it, `run()` never waits for a running worker with
`stopping` set and the eventfd unwritten, unless a `stop()` is just about to write it.
`early_stop_lost` is a run with an earlier call, whose request is lost.

## Proof strategy

The invariant `StopInv` accounts for `stopping`: once it is set, the eventfd has been
written or somebody is going to write it: a call of `stop()` past its store, `run()` in
a `stop()` of its own, or `run()` on its way to one because the mount failed.
-/
namespace Fex

open Foundation Machine

/-- `run()` is past the creation of the eventfd and has not begun to return. -/
def MainPc.hasEfd : MainPc → Bool
  | .acquireDev | .makeEfd | .teardown _ | .guardClose | .guardUmount | .returned => false
  | .mountOpen | .startWorkers | .launch _ | .spawnMounter | .joinMounter | .checkMount
  | .checkStopping | .checkInit | .stopStore _ | .stopCheck _ | .stopWrite _ | .joinWorkers ..
  | .destroy => true

/-- `run()` is in a `stop()` of its own, past the store. -/
def MainPc.stops : MainPc → Bool
  | .stopCheck _ | .stopWrite _ => true
  | _ => false

/-- `run()` waits for the mounter, or goes from there to a `stop()` of its own. -/
def MainPc.awaitsMount : MainPc → Bool
  | .joinMounter | .checkMount | .stopStore _ => true
  | _ => false

/-- The mounter thread runs. -/
def MounterPc.active : MounterPc → Bool
  | .create | .fsmount | .moveMount | .finish => true
  | .unborn | .exited => false

/-- Somebody has written the stop eventfd or is going to. -/
def Control.Announced (s : Control) : Prop :=
  s.Written ∨ 0 < s.stored ∨ 0 < s.checked ∨ s.main.stops = true ∨
    s.mountEc = true ∧ s.main.awaitsMount = true

structure StopInv (s : Control) : Prop where
  fresh : s.main = .acquireDev ∨ s.main = .makeEfd → s.stopEfd = none
  created : s.main.hasEfd = true → s.stopEfd ≠ none
  mounting : s.mounter.active = true → s.main = .joinMounter
  writable : 0 < s.checked → s.stopEfd ≠ none
  announced : s.stopping = true → s.Announced

theorem stopInv_initial : StopInv ({} : Session).toControl where
  fresh _ := rfl
  created needs := by cases needs
  mounting active := by cases active
  writable pending := by cases pending
  announced set := by cases set

section Steps

variable {c : Control} {s s' : Session} {nqueues : Nat} {ok : Bool}

theorem Control.Written.map {efd : Option Nat} (there : efd ≠ none) :
    ∃ count, efd.map (· + 1) = some (count + 1) := by
  obtain ⟨count, rfl⟩ := Option.ne_none_iff_exists'.mp there
  exact ⟨count, rfl⟩

/-- While the mounter runs, `run()` waits for it. -/
theorem StopInv.idle (inv : StopInv c) (elsewhere : c.main ≠ .joinMounter) :
    c.mounter.active ≠ true := mt inv.mounting elsewhere

/-- Nobody relies on `run()` to write the eventfd. -/
def MainPc.Calm (pc : MainPc) : Prop := pc.stops = false ∧ pc.awaitsMount = false

theorem MainPc.Calm.ne_joinMounter {pc : MainPc} (calm : pc.Calm) : pc ≠ .joinMounter := by
  rintro rfl
  cases calm.2

/-- While `run()` is in a calm place, a call of `stop()` answers for the flag. -/
theorem StopInv.announced_calm (inv : StopInv c) (calm : c.main.Calm) (set : c.stopping = true) :
    c.Written ∨ 0 < c.stored ∨ 0 < c.checked := by
  -- `run()` itself is in none of the places where it would write the eventfd.
  rcases inv.announced set with written | stored | checked | stops | ⟨-, awaits⟩
  · exact .inl written
  · exact .inr (.inl stored)
  · exact .inr (.inr checked)
  · exact absurd stops (by simp [calm.1])
  · exact absurd awaits (by simp [calm.2])

theorem Control.Announced.of_call (call : c.Written ∨ 0 < c.stored ∨ 0 < c.checked) :
    c.Announced := by
  rcases call with written | stored | checked
  · exact .inl written
  · exact .inr (.inl stored)
  · exact .inr (.inr (.inl checked))

/-- From a calm place, `run()` may go anywhere as far as the eventfd allows. -/
theorem StopInv.goes (inv : StopInv c) (calm : c.main.Calm) {pc : MainPc} {devOpen installed : Bool}
    (start : pc = .acquireDev ∨ pc = .makeEfd → c.stopEfd = none)
    (efd : pc.hasEfd = true → c.stopEfd ≠ none) :
    StopInv { c with main := pc, devOpen := devOpen, mountInstalled := installed } where
  fresh := start
  created := efd
  mounting active := absurd active (inv.idle calm.ne_joinMounter)
  writable := inv.writable
  announced set := .of_call (inv.announced_calm calm set)

/-- The same for a place that is not one of the first two. -/
theorem StopInv.goesOn (inv : StopInv c) (calm : c.main.Calm) {pc : MainPc}
    {devOpen installed : Bool} (later : pc ≠ .acquireDev ∧ pc ≠ .makeEfd)
    (efd : pc.hasEfd = true → c.main.hasEfd = true) :
    StopInv { c with main := pc, devOpen := devOpen, mountInstalled := installed } := by
  refine inv.goes calm ?_ fun needs => inv.created (efd needs)
  rintro (is | is)
  · exact absurd is later.1
  · exact absurd is later.2

/-- `run()` creates the eventfd: a call of `stop()` past its store has yet to look for it. -/
theorem StopInv.makeEfd (inv : StopInv c) (here : c.main = .makeEfd) :
    StopInv { c with stopEfd := some 0, main := .mountOpen } := by
  have none : c.stopEfd = none := inv.fresh (.inr here)
  refine ⟨?_, nofun, ?_, nofun, ?_⟩
  · rintro (is | is) <;> cases is
  · exact fun active => absurd active (inv.idle (by rw [here]; nofun))
  · intro set
    rcases inv.announced_calm (here ▸ ⟨rfl, rfl⟩) set with ⟨count, written⟩ | stored | checked
    · rw [none] at written
      cases written
    · -- That call is going to find the eventfd.
      exact .inr (.inl stored)
    · exact absurd none (inv.writable checked)

theorem StopInv.spawnMounter (inv : StopInv c) (here : c.main = .spawnMounter) :
    StopInv { c with mounter := .create, main := .joinMounter } := by
  refine ⟨?_, fun _ => inv.created (here ▸ rfl), fun _ => rfl, inv.writable, ?_⟩
  · rintro (is | is) <;> cases is
  · exact fun set => .of_call (inv.announced_calm (here ▸ ⟨rfl, rfl⟩) set)

/-- `run()` is in a `stop()` of its own. -/
theorem StopInv.inStop (inv : StopInv c) (efd : c.stopEfd ≠ none)
    (idle : c.mounter.active ≠ true) {pc : MainPc} {stopping : Bool} (stops : pc.stops = true) :
    StopInv { c with main := pc, stopping := stopping } := by
  refine ⟨?_, fun _ => efd, fun active => absurd active idle, inv.writable,
    fun _ => .inr (.inr (.inr (.inl stops)))⟩
  rintro (is | is) <;> (rw [show pc = _ from is] at stops; cases stops)

/-- `run()` has written the eventfd in a `stop()` of its own. -/
theorem stopInv_stopped (efd : c.stopEfd ≠ none) (idle : c.mounter.active ≠ true)
    (why : Cause) :
    StopInv { c with stopEfd := c.stopEfd.map (· + 1), main := .joinWorkers why 0 } := by
  obtain ⟨count, written⟩ := Control.Written.map efd
  have there : c.stopEfd.map (· + 1) ≠ none := by simp [written]
  refine ⟨?_, fun _ => there, fun active => absurd active idle, fun _ => there,
    fun _ => .inl ⟨count, written⟩⟩
  rintro (is | is) <;> cases is

/-- `run()` has joined the mounter; if the mount failed it goes on to its `stop()`. -/
theorem StopInv.afterMount (inv : StopInv c) (calm : c.main.stops = false)
    (idle : c.mounter.active ≠ true) {pc : MainPc}
    (efd : pc.hasEfd = true ∧ c.main.hasEfd = true)
    (passes : c.mountEc = true → pc.awaitsMount = true) : StopInv { c with main := pc } := by
  refine ⟨?_, fun _ => inv.created efd.2, fun active => absurd active idle,
    inv.writable, ?_⟩
  · rintro (is | is) <;> (rw [show pc = _ from is] at efd; cases efd.1)
  · intro set
    rcases inv.announced set with written | stored | checked | stops | ⟨failed, -⟩
    · exact .inl written
    · exact .inr (.inl stored)
    · exact .inr (.inr (.inl checked))
    · exact absurd stops (by simp [calm])
    · exact .inr (.inr (.inr (.inr ⟨failed, passes failed⟩)))

/-- A step that only takes `run()` to another place. -/
theorem StopInv.jumps {pc : MainPc} (inv : StopInv s.toControl) (jump : s.Jump nqueues pc) :
    StopInv (s.setMain pc).toControl := by
  cases jump with
  | mounterJoined here ended =>
    exact inv.afterMount (here ▸ rfl) (by rw [ended]; nofun) ⟨rfl, here ▸ rfl⟩ fun _ => rfl
  | mountFailed here failed =>
    have idle := inv.idle (by rw [here]; nofun)
    exact inv.afterMount (here ▸ rfl) idle ⟨rfl, here ▸ rfl⟩ fun _ => rfl
  | mountDone here done =>
    have idle := inv.idle (by rw [here]; nofun)
    exact inv.afterMount (here ▸ rfl) idle ⟨rfl, here ▸ rfl⟩ fun is => by simp [done] at is
  | efdFound why here efd => exact inv.inStop efd (inv.idle (by rw [here]; nofun)) rfl
  | efdMissing why here efd =>
    -- `run()` only stops itself where the eventfd exists.
    exact absurd efd (inv.created (here ▸ rfl))
  | opened here | startFailed here | staffed here | allLaunched _ here | stopSeen here
  | goesOn here | initSeen here | initMissing here | skipped _ _ _ here | allJoined _ here =>
    exact inv.goesOn (here ▸ ⟨rfl, rfl⟩) ⟨nofun, nofun⟩ fun _ => here ▸ rfl
  | allDown _ here | notInstalled here =>
    exact inv.goesOn (here ▸ ⟨rfl, rfl⟩) ⟨nofun, nofun⟩ nofun

/-- Every step of `run()` keeps the account. -/
theorem StopInv.main (inv : StopInv s.toControl) (step : s.MainStep nqueues s') :
    StopInv s'.toControl := by
  cases step with
  | jumps pc jump => exact inv.jumps jump
  | givesUp why here =>
    refine inv.goesOn ?_ ⟨nofun, nofun⟩ nofun
    rcases here with here | here | here <;> exact here ▸ ⟨rfl, rfl⟩
  | acquires here =>
    have none : s.stopEfd = none := inv.fresh (.inl here)
    exact inv.goes (here ▸ ⟨rfl, rfl⟩) (fun _ => none) nofun
  | makesEfd here => exact inv.makeEfd here
  | starts here more => exact inv
  | spawns here => exact inv.spawnMounter here
  -- `run()` only stops itself after it has created the eventfd.
  | stores why here =>
    exact inv.inStop (inv.created (here ▸ rfl)) (inv.idle (by rw [here]; nofun)) rfl
  | writes why here =>
    exact stopInv_stopped (inv.created (here ▸ rfl)) (inv.idle (by rw [here]; nofun)) why
  | launches _ here | joins _ _ _ _ here =>
    exact inv.goesOn (here ▸ ⟨rfl, rfl⟩) ⟨nofun, nofun⟩ fun _ => here ▸ rfl
  | returns _ _ _ here | destroys here | tearsDown _ here | closes here | umounts here =>
    exact inv.goesOn (here ▸ ⟨rfl, rfl⟩) ⟨nofun, nofun⟩ nofun

/-- While `run()` waits for the mounter, a failed mount answers for the flag. -/
theorem StopInv.duringMount (inv : StopInv c) (waits : c.main = .joinMounter) {pc : MounterPc}
    {failed installed stopping : Bool} (kept : c.mountEc = true → failed = true)
    (flag : stopping = true → c.stopping = true ∨ failed = true) :
    StopInv { c with
      mounter := pc
      mountEc := failed
      mountInstalled := installed
      stopping := stopping } := by
  refine ⟨inv.fresh, inv.created, fun _ => waits, inv.writable, ?_⟩
  intro set
  have awaits : c.main.awaitsMount = true := waits ▸ rfl
  rcases flag set with before | fails
  · rcases inv.announced before with written | stored | checked | stops | ⟨fails, -⟩
    · exact .inl written
    · exact .inr (.inl stored)
    · exact .inr (.inr (.inl checked))
    · exact .inr (.inr (.inr (.inl stops)))
    · exact .inr (.inr (.inr (.inr ⟨kept fails, awaits⟩)))
  · exact .inr (.inr (.inr (.inr ⟨fails, awaits⟩)))

theorem Session.MounterStep.active (step : s.MounterStep ok s') : s.mounter.active = true := by
  cases step with
  | created here | mounts here | moves here | finishes here => exact here ▸ rfl
  | fails here => rcases here with here | here | here <;> exact here ▸ rfl

theorem StopInv.mounter (inv : StopInv s.toControl) (step : s.MounterStep ok s') :
    StopInv s'.toControl := by
  have waits := inv.mounting step.active
  cases step with
  | created | mounts | moves => exact inv.duringMount waits id .inl
  | fails => exact inv.duringMount waits (fun _ => rfl) .inl
  -- A mounter that failed sets the flag without writing; `run()` stops itself after the join.
  | finishes => exact inv.duringMount waits id fun set => by simpa using set

/-! ### Calls of stop() -/

theorem StopInv.stopStore (inv : StopInv c) :
    StopInv { c with stopping := true, stored := c.stored + 1 } :=
  ⟨inv.fresh, inv.created, inv.mounting, inv.writable, fun _ => .inr (.inl (Nat.succ_pos _))⟩

/-- A call that finds the eventfd is going to write it. -/
theorem StopInv.stopCheck (inv : StopInv c) (efd : c.stopEfd ≠ none) :
    StopInv { c with stored := c.stored - 1, checked := c.checked + 1 } :=
  ⟨inv.fresh, inv.created, inv.mounting, fun _ => efd,
    fun _ => .inr (.inr (.inl (Nat.succ_pos _)))⟩

theorem StopInv.stopWrite (inv : StopInv c) (pending : 0 < c.checked) :
    StopInv { c with checked := c.checked - 1, stopEfd := c.stopEfd.map (· + 1) } := by
  have efd := inv.writable pending
  obtain ⟨count, written⟩ := Control.Written.map efd
  have there : c.stopEfd.map (· + 1) ≠ none := by simp [written]
  exact ⟨fun start => absurd (inv.fresh start) efd, fun _ => there, inv.mounting, fun _ => there,
    fun _ => .inl ⟨count, written⟩⟩

end Steps

/-! ### The main result -/

/-- No call of `stop()` looks for the eventfd before it exists. -/
def StopAfterEfd (s : Session) (a : SessionAction) : Prop := a = .stopCheck → s.stopEfd ≠ none

theorem StopInv.step {nqueues : Nat} {s s' : Session} {a : SessionAction}
    (allowed : StopAfterEfd s a) (inv : StopInv s.toControl)
    (taken : s.next nqueues a = some s') : StopInv s'.toControl := by
  cases Session.next_step taken with
  | main ok step => exact inv.main step
  | mounter ok step => exact inv.mounter step
  | call step =>
    cases step with
    | stores => exact inv.stopStore
    | finds efd => exact inv.stopCheck efd
    | misses efd => exact absurd efd (allowed rfl)
    | writes pending => exact inv.stopWrite pending
  | others effect =>
    rw [effect.control]
    exact inv

/-- `run()` is blocked in `join()` of a worker that was launched and has not left its loop. -/
def Session.JoinsRunning (s : Session) : Prop :=
  ∃ why q w, s.main = .joinWorkers why q ∧ s.workers[q]? = some w ∧ w.pc.Running

/-- `run()` waits for a worker, `stopping` is set, the eventfd the workers poll has never
been written, and no call of `stop()` is left that would write it. -/
def Session.StopLost (s : Session) : Prop :=
  s.JoinsRunning ∧ s.stopping = true ∧ s.stopEfd = some 0 ∧ s.stored = 0 ∧ s.checked = 0

/-- Where every `stop()` finds the eventfd, none is lost: if `run()` waits for a worker
with `stopping` set, the eventfd has been written or a `stop()` is about to. -/
theorem stop_reaches_workers (nqueues : Nat) (s : Session)
    (reachable : (sessionMachine nqueues).ReachableBy StopAfterEfd s) :
    (s.JoinsRunning → s.stopping = true → s.Written ∨ 0 < s.stored ∨ 0 < s.checked) ∧
      ¬s.StopLost := by
  have inv : StopInv s.toControl := reachable.invariant (fun s => StopInv s.toControl)
    (fun s initial => initial ▸ stopInv_initial) fun s a s' allowed inv taken =>
      inv.step allowed taken
  have delivered (joins : s.JoinsRunning) (set : s.stopping = true) :
      s.Written ∨ 0 < s.stored ∨ 0 < s.checked := by
    obtain ⟨why, q, w, here, -⟩ := joins
    exact inv.announced_calm (here ▸ ⟨rfl, rfl⟩) set
  refine ⟨delivered, ?_⟩
  rintro ⟨joins, set, unwritten, stored, checked⟩
  rcases delivered joins set with ⟨count, written⟩ | pending | pending
  · rw [unwritten] at written
    cases written
  · omega
  · omega

/-! ### Two runs with one worker -/

/-- From the start to the launched worker and mounter. -/
def bootActions : List SessionAction := List.replicate 8 (.main true)

/-- A request of the handshake, answered by worker 0. -/
def answerActions : List SessionAction := [.send 0, .deliver 0, .handle 0 .accepted, .commit 0]

/-- From there to the finished mount. -/
def mountActions : List SessionAction :=
  answerActions ++ answerActions ++ answerActions ++ List.replicate 4 (.mounter true)

/-- The session in which worker 0 waits for requests and `run()` for worker 0. -/
def joiningState (why : Cause) (stopping : Bool) (stored : Nat) : Session :=
  { main := .joinWorkers why 0
    mounter := .exited
    devOpen := true
    stopEfd := some 0
    stopping := stopping
    mountInstalled := true
    stored := stored
    workers := [{ pc := .waiting }]
    initDone := true
    answered := 3
    log := [.initSucceeded, .moved] }

theorem joiningState_joinsRunning (why : Cause) (stopping : Bool) (stored : Nat) :
    (joiningState why stopping stored).JoinsRunning :=
  ⟨why, 0, { pc := .waiting }, rfl, rfl, .inl rfl⟩

/-- A `stop()` that comes while `run()` waits for the worker, past its store. -/
theorem stop_reaches_workers_late :
    let s := joiningState .drained true 1
    s.JoinsRunning ∧ s.stopping = true ∧ (s.Written ∨ 0 < s.stored ∨ 0 < s.checked) := by
  intro s
  have reachable : (sessionMachine 1).ReachableBy StopAfterEfd s := by
    refine ReachableBy.exec (.start rfl)
      (bootActions ++ mountActions ++ List.replicate 4 (.main true) ++ [.stopStore]) ?_ rfl
    rintro v a member rfl
    exact absurd member (by decide)
  have joins := joiningState_joinsRunning .drained true 1
  exact ⟨joins, rfl, (stop_reaches_workers 1 s reachable).1 joins rfl⟩

/-- `stop()` is called before `run()`: the flag is set, but there is no eventfd to write.
`run()` mounts, sees the flag, and waits for a worker nobody has told. -/
theorem early_stop_lost : ∃ s, (sessionMachine 1).Reachable s ∧ s.StopLost := by
  refine ⟨joiningState .stopRequested true 0, ?_, ?_⟩
  · exact ReachableBy.exec (.start rfl)
      ([.stopStore, .stopCheck] ++ bootActions ++ mountActions ++ List.replicate 3 (.main true))
      (fun _ _ _ => trivial) rfl
  · exact ⟨joiningState_joinsRunning .stopRequested true 0, rfl, rfl, rfl, rfl⟩

end Fex
