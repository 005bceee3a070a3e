import Fex.Properties.Unwinding

/-!
# Whether init and destroy are paired

## Main result

`init_destroy_paired`: in every run in which a success of `fs->init` meets no version
mismatch, no failed mount syscall and no `stop()` that `run()` finds when it checks for
one, `fs.destroy()` is called exactly once for it, after every worker was joined, and
never without it. `failed_mount_skips_destroy` is a run in which `move_mount` fails after
the handshake: `run()` returns and the file system is never told.

## Proof strategy

The invariant `Pairing` follows a run through three stages: before `fs->init` succeeds,
between that and `destroy()`, and after. In the middle stage `run()` can only be on the
one path that leads to `destroy()`, because nothing that makes it turn off has happened.
-/
namespace Fex

open Foundation Machine

/-- `run()` has not checked `stopping` yet. -/
def MainPc.beforeCheck : MainPc → Bool
  | .acquireDev | .makeEfd | .mountOpen | .startWorkers | .launch _ | .spawnMounter
  | .joinMounter | .checkMount | .checkStopping => true
  | _ => false

/-- `run()` will return without a call of `destroy()`: the mount failed, or `stopping` is
set before it is checked. -/
def Session.EndsEarly (s : Session) : Prop :=
  s.mountEc = true ∨ s.stopping = true ∧ s.main.beforeCheck = true

instance (s : Session) : Decidable s.EndsEarly := inferInstanceAs (Decidable (_ ∨ _))

/-- `run()` goes to call `destroy()` once the workers are joined. -/
def MainPc.drains : MainPc → Bool
  | .stopStore why | .stopCheck why | .stopWrite why | .joinWorkers why _ => why = .drained
  | .destroy => true
  | _ => false

/-- `run()` has spawned the mounter and is on the way to `destroy()`. -/
def MainPc.serves : MainPc → Bool
  | .joinMounter | .checkMount | .checkStopping | .checkInit | .destroy => true
  | .joinWorkers why _ => why = .drained
  | _ => false

/-- `run()` is past the call of `destroy()`, or has gone around it. -/
def MainPc.leaves : MainPc → Bool
  | .teardown _ | .guardClose | .guardUmount | .returned => true
  | _ => false

/-- How far the file system has come. -/
inductive Pairing (s : Session) : Prop where
  | uninitialised (unseen : .initSucceeded ∉ s.log) (undone : s.initDone = false)
      (alive : .destroyed ∉ s.log) (place : s.main.drains = false)
  | serving (seen : .initSucceeded ∈ s.log) (done : s.initDone = true)
      (alive : .destroyed ∉ s.log) (place : s.main.serves = true) (goesOn : ¬s.EndsEarly)
  | destroyed (seen : .initSucceeded ∈ s.log) (once : s.log.count .destroyed = 1)
      (place : s.main.leaves = true)
      (order : ∀ q, .joined q ∈ s.log → [.joined q, .destroyed].Sublist s.log)

structure PairInv (s : Session) : Prop where
  /-- Without `CMD_CREATE`, nothing is asked; a failed one may leave a request behind. -/
  idle : s.mounter ≠ .create → s.mountEc = false → s.outstanding = none
  pairing : Pairing s

theorem pairInv_initial : PairInv {} where
  idle _ _ := rfl
  pairing := .uninitialised List.not_mem_nil rfl List.not_mem_nil rfl

section Steps

variable {s s' : Session} {nqueues : Nat} {ok : Bool}

/-- A step that is neither of the two calls keeps the stage, if it keeps `run()` where it
may be in that stage. -/
theorem Pairing.passes (pairing : Pairing s) (more : List SessionEvent)
    (log : s'.log = s.log ++ more) (foreign : .initSucceeded ∉ more ∧ .destroyed ∉ more)
    (done : s'.initDone = s.initDone)
    (drains : s.main.drains = false → s'.main.drains = false)
    (serves : .initSucceeded ∈ s.log → s.main.serves = true → ¬s.EndsEarly →
      s'.main.serves = true ∧ ¬s'.EndsEarly)
    (leaves : s.main.leaves = true → s'.main.leaves = true ∧ ∀ q, .joined q ∉ more) :
    Pairing s' := by
  have seen : .initSucceeded ∈ s'.log ↔ .initSucceeded ∈ s.log := by
    rw [log, List.mem_append, or_iff_left foreign.1]
  have dead : .destroyed ∈ s'.log ↔ .destroyed ∈ s.log := by
    rw [log, List.mem_append, or_iff_left foreign.2]
  cases pairing with
  | uninitialised unseen undone alive place =>
    exact .uninitialised (mt seen.mp unseen) (done.trans undone) (mt dead.mp alive) (drains place)
  | serving before ready alive place goesOn =>
    obtain ⟨place, goesOn⟩ := serves before place goesOn
    exact .serving (seen.mpr before) (done.trans ready) (mt dead.mp alive) place goesOn
  | destroyed before once place order =>
    obtain ⟨place, unjoined⟩ := leaves place
    refine .destroyed (seen.mpr before) ?_ place ?_
    · rw [log, List.count_append, once, List.count_eq_zero.mpr foreign.2]
    · intro q joined
      rw [log, List.mem_append, or_iff_left (unjoined q)] at joined
      rw [log]
      exact (order q joined).trans (List.sublist_append_left _ _)

/-- A step of `run()` to a place that no longer depends on the check of `stopping`, or
that depended on it already. -/
theorem Pairing.goes {pc : MainPc} (pairing : Pairing s) (here : s.main = pc)
    (log : s'.log = s.log) (done : s'.initDone = s.initDone)
    (drains : pc.drains = false → s'.main.drains = false)
    (serves : pc.serves = true → ¬s.EndsEarly → s'.main.serves = true ∧ ¬s'.EndsEarly)
    (leaves : pc.leaves = true → s'.main.leaves = true) : Pairing s' := by
  subst here
  exact pairing.passes [] (by rw [log, List.append_nil]) ⟨List.not_mem_nil, List.not_mem_nil⟩ done
    drains (fun _ => serves) fun is => ⟨leaves is, fun _ => List.not_mem_nil⟩

/-- `run()` goes on: where it has yet to check `stopping`, it had before. -/
theorem Session.EndsEarly.setMain {pc : MainPc}
    (later : pc.beforeCheck = true → s.main.beforeCheck = true)
    (early : (s.setMain pc).EndsEarly) : s.EndsEarly := by
  rcases early with failed | ⟨set, before⟩
  · exact .inl failed
  · exact .inr ⟨set, later before⟩

theorem Pairing.jumps {pc : MainPc} (pairing : Pairing s) (jump : s.Jump nqueues pc) :
    Pairing (s.setMain pc) := by
  cases jump with
  | opened here | startFailed here | staffed here | allLaunched _ here =>
    exact pairing.goes here rfl rfl (fun _ => rfl) nofun nofun
  | efdFound _ here | efdMissing _ here => exact pairing.goes here rfl rfl id nofun nofun
  | mounterJoined here | mountDone here =>
    exact pairing.goes here rfl rfl (fun _ => rfl)
      (fun _ goesOn => ⟨rfl, mt (.setMain fun _ => here ▸ rfl) goesOn⟩) nofun
  | goesOn here =>
    exact pairing.goes here rfl rfl (fun _ => rfl)
      (fun _ goesOn => ⟨rfl, mt (.setMain nofun) goesOn⟩) nofun
  -- A session that was being served would not have failed to mount.
  | mountFailed here failed =>
    exact pairing.goes here rfl rfl (fun _ => rfl)
      (fun _ goesOn => absurd (.inl failed) goesOn) nofun
  -- Nor would it have been stopped before this check.
  | stopSeen here set =>
    exact pairing.goes here rfl rfl (fun _ => rfl)
      (fun _ goesOn => absurd (.inr ⟨set, here ▸ rfl⟩) goesOn) nofun
  | initSeen here done =>
    cases pairing with
    | uninitialised unseen undone =>
      rw [done] at undone
      cases undone
    | serving seen ready alive place goesOn =>
      exact .serving seen ready alive rfl (mt (.setMain nofun) goesOn)
    | destroyed seen once place =>
      rw [here] at place
      cases place
  | initMissing here missing =>
    cases pairing with
    | uninitialised unseen undone alive => exact .uninitialised unseen undone alive rfl
    | serving seen ready =>
      rw [missing] at ready
      cases ready
    | destroyed seen once place =>
      rw [here] at place
      cases place
  | skipped _ _ _ here =>
    exact pairing.goes here rfl rfl id (fun is goesOn => ⟨is, mt (.setMain nofun) goesOn⟩) nofun
  | allJoined _ here =>
    exact pairing.goes here rfl rfl nofun (fun _ goesOn => ⟨rfl, mt (.setMain nofun) goesOn⟩) nofun
  | allDown _ here | notInstalled here =>
    exact pairing.goes here rfl rfl (fun _ => rfl) nofun (fun _ => rfl)

/-- `fs.destroy()` is called with every worker joined. -/
theorem Pairing.destroys (pairing : Pairing s) (here : s.main = .destroy)
    (result : Option RunError) :
    Pairing (Session.leave { s with log := s.log ++ [.destroyed] } result) := by
  cases pairing with
  | uninitialised unseen undone alive place =>
    rw [here] at place
    cases place
  | serving seen ready alive =>
    refine .destroyed (List.mem_append_left _ seen) ?_ rfl ?_
    · rw [Session.leave, List.count_append, List.count_eq_zero.mpr alive]
      rfl
    · intro q joined
      -- Every join is in the log before the call.
      rcases List.mem_append.mp joined with before | same
      · exact (List.singleton_sublist.mpr before).append (List.Sublist.refl _)
      · cases List.mem_singleton.mp same
  | destroyed seen once place =>
    rw [here] at place
    cases place

/-- A step of the end of `run()`. -/
theorem Pairing.unwinds {pc : MainPc} {e : SessionEvent} (pairing : Pairing s)
    (here : s.main = pc) (source : pc.leaves = true ∧ pc.serves = false)
    (target : s'.main.leaves = true ∧ s'.main.drains = false) (log : s'.log = s.log ++ [e])
    (foreign : e ≠ .initSucceeded ∧ e ≠ .destroyed ∧ ∀ q, e ≠ .joined q)
    (done : s'.initDone = s.initDone) : Pairing s' := by
  subst here
  refine pairing.passes [e] log ?_ done (fun _ => target.2) ?_ fun _ => ⟨target.1, ?_⟩
  · simp [foreign.1.symm, foreign.2.1.symm]
  · intro _ serves
    rw [source.2] at serves
    cases serves
  · intro q
    simp [(foreign.2.2 q).symm]

theorem Pairing.main (pairing : Pairing s) (step : s.MainStep nqueues s') : Pairing s' := by
  cases step with
  | jumps pc jump => exact pairing.jumps jump
  | givesUp why here =>
    rcases here with here | here | here <;>
      exact pairing.goes here rfl rfl (fun _ => rfl) nofun nofun
  | acquires here | makesEfd here | launches _ here | spawns here =>
    exact pairing.goes here rfl rfl (fun _ => rfl) nofun nofun
  | starts here => exact pairing.goes here rfl rfl (fun _ => here ▸ rfl) nofun nofun
  | stores _ here | writes _ here => exact pairing.goes here rfl rfl id nofun nofun
  | joins why q w out here =>
    refine pairing.passes [.joined q] rfl ⟨by simp, by simp⟩ rfl ?_ ?_ ?_
    · rw [here]
      exact id
    · intro _ serves goesOn
      rw [here] at serves
      refine ⟨serves, ?_⟩
      rintro (failed | ⟨-, before⟩)
      · exact goesOn (.inl failed)
      · cases before
    · rw [here]
      nofun
  | returns why _ _ here all undrained =>
    refine pairing.goes here rfl rfl (fun _ => rfl) (fun is => ?_) nofun
    exact absurd (of_decide_eq_true is) undrained
  | destroys here result => exact pairing.destroys here result
  | tearsDown _ here | closes here | umounts here =>
    exact pairing.unwinds here ⟨rfl, rfl⟩ ⟨rfl, rfl⟩ rfl ⟨nofun, nofun, nofun⟩ rfl

end Steps

/-! ### The main result -/

/-- What keeps `init` and `destroy` paired: `fs->init` succeeds only for our major version
and in a run that does not end early; once it has succeeded, no mount syscall fails and no
`stop()` is called before `run()` has checked for it. -/
def PairsUp (s : Session) : SessionAction → Prop
  | .handle q outcome => s.outstanding = some ⟨q, true⟩ → s.answered = 0 →
      outcome ≠ .mismatch ∧ (outcome = .accepted → ¬s.EndsEarly)
  | .mounter false => .initSucceeded ∈ s.log → s.mounter = .finish
  | .stopStore => .initSucceeded ∈ s.log → s.main.beforeCheck = false
  | _ => True

instance (s : Session) (a : SessionAction) : Decidable (PairsUp s a) :=
  match a with
  | .handle .. => inferInstanceAs (Decidable (_ → _))
  | .mounter false | .stopStore => inferInstanceAs (Decidable (_ → _))
  | .mounter true | .main _ | .send _ | .deliver _ | .take _ | .rearm _ | .badIndex _
  | .commit _ | .exit .. | .stopCheck | .stopWrite | .disconnect => .isTrue trivial

section Runs

variable {s s' : Session} {nqueues : Nat} {a : SessionAction} {ok : Bool}

/-- A step in which `run()` does nothing and no `fs->init` succeeds. -/
theorem Pairing.stays (pairing : Pairing s) (main : s'.main = s.main) (more : List SessionEvent)
    (log : s'.log = s.log ++ more)
    (foreign : .initSucceeded ∉ more ∧ .destroyed ∉ more ∧ ∀ q, .joined q ∉ more)
    (done : s'.initDone = s.initDone)
    (early : .initSucceeded ∈ s.log → s'.EndsEarly → s.EndsEarly) : Pairing s' := by
  refine pairing.passes more log ⟨foreign.1, foreign.2.1⟩ done ?_ ?_ ?_
  · rw [main]
    exact id
  · rw [main]
    exact fun seen serves goesOn => ⟨serves, mt (early seen) goesOn⟩
  · rw [main]
    exact fun leaves => ⟨leaves, foreign.2.2⟩

/-- The same for a step that is not seen from outside. -/
theorem Pairing.silent (pairing : Pairing s) (main : s'.main = s.main) (log : s'.log = s.log)
    (done : s'.initDone = s.initDone)
    (early : .initSucceeded ∈ s.log → s'.EndsEarly → s.EndsEarly) : Pairing s' :=
  pairing.stays main [] (by rw [log, List.append_nil])
    ⟨List.not_mem_nil, List.not_mem_nil, fun _ => List.not_mem_nil⟩ done early

theorem PairInv.mounter (allowed : PairsUp s (.mounter ok)) (inv : PairInv s)
    (step : s.MounterStep ok s') : PairInv s' := by
  cases step with
  | created here served idle => exact ⟨fun _ _ => idle, inv.pairing.silent rfl rfl rfl fun _ => id⟩
  | mounts here =>
    have idle := inv.idle (by rw [here]; nofun)
    exact ⟨fun _ => idle, inv.pairing.silent rfl rfl rfl fun _ => id⟩
  | moves here =>
    have idle := inv.idle (by rw [here]; nofun)
    have foreign : .initSucceeded ∉ [SessionEvent.moved] ∧ .destroyed ∉ [SessionEvent.moved] ∧
        ∀ q, .joined q ∉ [SessionEvent.moved] := by simp
    exact ⟨fun _ => idle, inv.pairing.stays rfl [.moved] rfl foreign rfl fun _ => id⟩
  | finishes here =>
    have idle := inv.idle (by rw [here]; nofun)
    refine ⟨fun _ => idle, inv.pairing.silent rfl rfl rfl fun _ => ?_⟩
    -- The flag is set for a failed mount, which ends the run early anyway.
    rintro (failed | ⟨set, before⟩)
    · exact .inl failed
    · rcases (Bool.or_eq_true _ _).mp set with set | failed
      · exact .inr ⟨set, before⟩
      · exact .inl failed
  | fails here =>
    refine ⟨nofun, inv.pairing.silent rfl rfl rfl fun seen => ?_⟩
    -- No call of the mount may fail once `fs->init` has succeeded.
    have finished : s.mounter = .finish := allowed seen
    rw [finished] at here
    rcases here with is | is | is <;> cases is

/-- `fs->init` succeeds while `run()` waits for the mounter. -/
theorem PairInv.initialises (allowed : PairsUp s a) (inv : PairInv s) (mount : MountInv s)
    (control : s'.toControl = s.toControl) (init : s.Initialises a s') : Pairing s' := by
  obtain ⟨logged, first, q, outcome, rfl, pending, kind⟩ := init
  obtain ⟨matched, early⟩ := allowed pending first
  obtain ⟨rfl, done⟩ := kind.resolve_left matched
  have goesOn : ¬s.EndsEarly := early rfl
  have main : s'.main = .joinMounter := by
    -- The request is outstanding, so `CMD_CREATE` has not returned.
    have creating : s.mounter = .create := by
      by_contra other
      rw [inv.idle other (by simpa using mt Or.inl goesOn)] at pending
      cases pending
    exact (congrArg Control.main control).trans (mount.mounting (creating ▸ rfl))
  -- `run()` is still waiting for the mounter, so it has not come to `destroy()`.
  have alive : .destroyed ∉ s.log := by
    cases inv.pairing with
    | uninitialised _ _ alive | serving _ _ alive => exact alive
    | destroyed _ _ place =>
      rw [← show s'.main = s.main from congrArg Control.main control, main] at place
      cases place
  refine .serving ?_ done ?_ (main ▸ rfl) ?_
  · rw [logged]
    exact List.mem_append_right _ (List.mem_singleton_self _)
  · rw [logged]
    simpa using alive
  · rw [Session.EndsEarly, control]
    exact goesOn

theorem PairInv.main (inv : PairInv s) (step : s.MainStep nqueues s') : PairInv s' := by
  refine ⟨?_, inv.pairing.main step⟩
  cases step with
  | spawns => exact fun creating => absurd rfl creating
  | jumps | givesUp | acquires | makesEfd | starts | launches | stores | writes | joins | returns
  | destroys | tearsDown | closes | umounts => exact inv.idle

theorem PairInv.call (allowed : PairsUp s a) (inv : PairInv s) (step : s.CallStep a s') :
    PairInv s' := by
  cases step with
  | finds | misses | writes => exact ⟨inv.idle, inv.pairing.silent rfl rfl rfl fun _ => id⟩
  | stores =>
    refine ⟨inv.idle, inv.pairing.silent rfl rfl rfl fun seen => ?_⟩
    have checked : s.main.beforeCheck = false := allowed seen
    rintro (failed | ⟨-, before⟩)
    · exact .inl failed
    · rw [checked] at before
      cases before

theorem PairInv.others (allowed : PairsUp s a) (inv : PairInv s) (mount : MountInv s)
    (control : s'.toControl = s.toControl) (background : s.Background a s') : PairInv s' := by
  refine ⟨?_, ?_⟩
  · rw [control]
    exact fun created fine => (background.handshake created (inv.idle created fine)).1
  · rcases background.init with ⟨log, done⟩ | init
    · refine inv.pairing.silent (congrArg Control.main control) log done fun _ => ?_
      rw [Session.EndsEarly, control]
      exact id
    · exact inv.initialises allowed mount control init

theorem PairInv.step (allowed : PairsUp s a) (inv : PairInv s) (mount : MountInv s)
    (taken : s.next nqueues a = some s') : PairInv s' := by
  cases Session.next_step taken with
  | main ok step => exact inv.main step
  | mounter ok step => exact inv.mounter allowed step
  | call step => exact inv.call allowed step
  | others effect background => exact inv.others allowed mount effect.control background

end Runs

/-- The file system was told of the end of a session it had accepted, once and after every
thread was joined, and of no other. -/
structure Session.Paired (s : Session) : Prop where
  destroyed : .initSucceeded ∈ s.log → s.log.count .destroyed = 1
  joined : .initSucceeded ∈ s.log → ∀ (q : Nat) (w : Worker), s.workers[q]? = some w →
    w.pc = .started ∨ [.joined q, .destroyed].Sublist s.log
  undestroyed : .initSucceeded ∉ s.log → .destroyed ∉ s.log

/-- Where nothing turns `run()` off its path once the file system is initialised, `init`
and `destroy` are paired. -/
theorem init_destroy_paired (nqueues : Nat) (s : Session)
    (reachable : (sessionMachine nqueues).ReachableBy PairsUp s) (returned : s.main = .returned) :
    s.Paired := by
  have inv : UnwindInv s ∧ PairInv s :=
    reachable.invariant (fun s => UnwindInv s ∧ PairInv s)
      (fun v (initial : v = {}) => initial ▸ ⟨unwindInv_initial, pairInv_initial⟩)
      fun _ _ _ allowed inv taken => ⟨inv.1.step taken, inv.2.step allowed inv.1.mount taken⟩
  cases inv.2.pairing with
  | uninitialised unseen undone alive =>
    exact ⟨fun seen => absurd seen unseen, fun seen => absurd seen unseen, fun _ => alive⟩
  | serving _ _ _ place =>
    rw [returned] at place
    cases place
  -- A worker that was launched has been joined, and all joins precede the call.
  | destroyed seen once place order =>
    refine ⟨fun _ => once, fun _ q w found => ?_, fun unseen => absurd seen unseen⟩
    exact (inv.1.workers.joined q w (returned ▸ trivial) found).imp_right fun ended =>
      order q ended.2

/-- The session that was mounted, served and stopped: `stop()` came after the check. -/
theorem init_destroy_paired_stopped :
    .initSucceeded ∈ stoppedSession.log ∧ stoppedSession.Paired := by
  refine ⟨by decide, init_destroy_paired 1 stoppedSession ?_ rfl⟩
  exact ReachableBy.execBy (.start rfl) (bootActions ++ mountActions ++ stopActions) rfl

/-- From the served handshake to the return of `run()`, when `move_mount` fails. -/
def failedMountActions : List SessionAction :=
  answerActions ++ answerActions ++ answerActions ++
    [.mounter true, .mounter true, .mounter false, .mounter true] ++
    List.replicate 5 (.main true) ++ [.exit 0 .stopped] ++ List.replicate 5 (.main true)

/-- The handshake is served and `fs->init` has succeeded, but `move_mount` fails: `run()`
stops the workers and returns the error, and `destroy()` is not called. -/
theorem failed_mount_skips_destroy :
    ∃ s, (sessionMachine 1).Reachable s ∧ s.main = .returned ∧ .initSucceeded ∈ s.log ∧
      .destroyed ∉ s.log := by
  refine ⟨{
    main := .returned
    mounter := .exited
    devOpen := true
    stopEfd := some 1
    stopping := true
    mountEc := true
    workers := [{ pc := .left .stopped }]
    initDone := true
    answered := 3
    result := some .mount
    log := [.initSucceeded, .joined 0, .ringDown 0] }, ?_, rfl, by decide, by decide⟩
  exact ReachableBy.exec (.start rfl) (bootActions ++ failedMountActions)
    (fun _ _ _ => trivial) rfl

end Fex
