import Fex.Properties.StopDelivery

/-!
# How a run is unwound

## Main result

`run_unwinds`: whatever fails and whenever `stop()` is called, when `run()` returns every
worker that was launched has been joined, after that every ring has been torn down, and a
mount that was installed has been dropped once, with the device closed before.

## Proof strategy

Two invariants by the place of `run()`. `WorkersInv` says which workers are joined and
which rings are down there; it holds because a worker whose thread is over does not move.
`MountInv` says which of the three events of the mount have been seen.
-/
namespace Fex

open Foundation Machine

/-! ### Workers and rings -/

/-- `run()` has not come to its workers. -/
def MainPc.fresh : MainPc → Bool
  | .acquireDev | .makeEfd | .mountOpen => true
  | _ => false

/-- `run()` is past the `join()` of worker `q`. -/
def MainPc.PastJoin : MainPc → Nat → Prop
  | .joinWorkers _ next, q => q < next
  | .destroy, _ | .teardown _, _ | .guardClose, _ | .guardUmount, _ | .returned, _ => True
  | _, _ => False

/-- `run()` is past the destructor of worker `q`. -/
def MainPc.PastTeardown : MainPc → Nat → Prop
  | .teardown next, q => q < next
  | .guardClose, _ | .guardUmount, _ | .returned, _ => True
  | _, _ => False

/-- The worker never had a thread, or its thread is over and was joined. -/
def Worker.Joined (w : Worker) (log : List SessionEvent) (q : Nat) : Prop :=
  w.pc = .started ∨ (∃ why, w.pc = .left why) ∧ .joined q ∈ log

/-- The worker's ring was torn down, after its thread was joined if it had one. -/
def Worker.TornDown (w : Worker) (log : List SessionEvent) (q : Nat) : Prop :=
  .ringDown q ∈ log ∧ (w.pc = .started ∨ [.joined q, .ringDown q].Sublist log)

theorem Worker.Joined.mono {w : Worker} {log : List SessionEvent} {q : Nat}
    (joined : w.Joined log q) (more : List SessionEvent) : w.Joined (log ++ more) q := by
  rcases joined with unborn | ⟨ended, seen⟩
  · exact .inl unborn
  · exact .inr ⟨ended, List.mem_append_left _ seen⟩

theorem Worker.TornDown.mono {w : Worker} {log : List SessionEvent} {q : Nat}
    (down : w.TornDown log q) (more : List SessionEvent) : w.TornDown (log ++ more) q :=
  ⟨List.mem_append_left _ down.1, down.2.imp_right fun order =>
    order.trans (List.sublist_append_left log more)⟩

/-- The ring of a joined worker is torn down. -/
theorem Worker.Joined.tornDown {w : Worker} {log : List SessionEvent} {q : Nat}
    (joined : w.Joined log q) : w.TornDown (log ++ [.ringDown q]) q := by
  refine ⟨by simp, joined.imp_right fun ⟨_, seen⟩ => ?_⟩
  exact (List.singleton_sublist.mpr seen).append (List.Sublist.refl _)

/-- A joined worker has no thread that could move. -/
theorem Worker.Joined.not_running {w : Worker} {log : List SessionEvent} {q : Nat}
    (joined : w.Joined log q) : ¬w.pc.Running := by
  rcases joined with unborn | ⟨⟨why, ended⟩, -⟩
  · rw [unborn]
    rintro (is | is | is) <;> cases is
  · rw [ended]
    rintro (is | is | is) <;> cases is

structure WorkersInv (s : Session) : Prop where
  fresh : s.main.fresh = true → s.workers = []
  joined : ∀ (q : Nat) (w : Worker), s.main.PastJoin q → s.workers[q]? = some w →
    w.Joined s.log q
  down : ∀ (q : Nat) (w : Worker), s.main.PastTeardown q → s.workers[q]? = some w →
    w.TornDown s.log q

theorem workersInv_initial : WorkersInv {} where
  fresh _ := rfl
  joined _ _ past := by cases past
  down _ _ past := by cases past

section Workers

variable {s s' : Session} {nqueues : Nat} {ok : Bool}

/-- `run()` is on its way to the first `join()`. -/
theorem workersInv_unjoined (used : s.main.fresh = false) (unjoined : ∀ q, ¬s.main.PastJoin q)
    (up : ∀ q, ¬s.main.PastTeardown q) : WorkersInv s where
  fresh is := by rw [used] at is; cases is
  joined q w past := absurd past (unjoined q)
  down q w past := absurd past (up q)

/-- The locals begin to be destroyed with every worker joined. -/
theorem workersInv_leaves (here : s.main = .teardown 0)
    (joined : ∀ (q : Nat) (w : Worker), s.workers[q]? = some w → w.Joined s.log q) :
    WorkersInv s where
  fresh is := by rw [here] at is; cases is
  joined q w _ found := joined q w found
  down q w past := by rw [here] at past; cases past

/-- Past the last worker, each of them is joined. -/
theorem WorkersInv.all_joined {why : Cause} {next : Nat} (inv : WorkersInv s)
    (here : s.main = .joinWorkers why next) (all : s.workers.length ≤ next) (q : Nat)
    (w : Worker) (found : s.workers[q]? = some w) : w.Joined s.log q := by
  obtain ⟨bound, -⟩ := List.getElem?_eq_some_iff.mp found
  exact inv.joined q w (here ▸ Nat.lt_of_lt_of_le bound all) found

/-- The loop that joins the workers goes on to the next one. -/
theorem WorkersInv.joinNext {why : Cause} {q : Nat} {w : Worker} (inv : WorkersInv s)
    (here : s.main = .joinWorkers why q) (found : s.workers[q]? = some w)
    (more : List SessionEvent) (joined : w.Joined (s.log ++ more) q) :
    WorkersInv { s with main := .joinWorkers why (q + 1), log := s.log ++ more } where
  fresh is := by cases is
  joined i v past present := by
    -- Those before `q` were joined earlier, and their events stay in the log.
    rcases Nat.lt_succ_iff_lt_or_eq.mp past with before | rfl
    · exact (inv.joined i v (here ▸ before) present).mono more
    · rw [show v = w from Option.some.inj (present.symm.trans found)]
      exact joined
  down _ _ past := by cases past

theorem WorkersInv.jumps {pc : MainPc} (inv : WorkersInv s) (jump : s.Jump nqueues pc) :
    WorkersInv (s.setMain pc) := by
  cases jump with
  | opened | startFailed | staffed | allLaunched | mounterJoined | mountFailed | mountDone
  | goesOn | initMissing | efdFound => exact workersInv_unjoined rfl nofun nofun
  | stopSeen | initSeen | efdMissing =>
    exact workersInv_unjoined rfl (fun q => Nat.not_lt_zero q) nofun
  | skipped why q w here found unborn =>
    have next := inv.joinNext here found [] (.inl unborn)
    rwa [List.append_nil] at next
  | allJoined next here all =>
    exact ⟨nofun, fun q w _ found => inv.all_joined here all q w found, nofun⟩
  | allDown next here all =>
    refine ⟨nofun, fun q w _ found => inv.joined q w (here ▸ trivial) found, ?_⟩
    intro q w _ found
    obtain ⟨bound, -⟩ := List.getElem?_eq_some_iff.mp found
    exact inv.down q w (here ▸ Nat.lt_of_lt_of_le bound all) found
  | notInstalled here =>
    exact ⟨nofun, fun q w _ => inv.joined q w (here ▸ trivial),
      fun q w _ => inv.down q w (here ▸ trivial)⟩

theorem WorkersInv.main (inv : WorkersInv s) (step : s.MainStep nqueues s') :
    WorkersInv s' := by
  cases step with
  | jumps pc jump => exact inv.jumps jump
  | givesUp why here =>
    -- No worker has been started yet.
    have none : s.workers = [] := by
      apply inv.fresh
      rcases here with here | here | here <;> exact here ▸ rfl
    refine workersInv_leaves rfl fun q w found => ?_
    rw [show (s.leave (some why)).workers = [] from none] at found
    cases found
  | acquires here | makesEfd here => exact ⟨fun _ => inv.fresh (here ▸ rfl), nofun, nofun⟩
  | starts here =>
    refine workersInv_unjoined ?_ ?_ ?_ <;> dsimp only <;> rw [here]
    · rfl
    · nofun
    · nofun
  | launches | spawns | stores => exact workersInv_unjoined rfl nofun nofun
  | writes => exact workersInv_unjoined rfl (fun q => Nat.not_lt_zero q) nofun
  | joins why q w out here found ended =>
    exact inv.joinNext here found [.joined q] (.inr ⟨⟨out, ended⟩, by simp⟩)
  | returns why next result here all => exact workersInv_leaves rfl (inv.all_joined here all)
  | destroys here =>
    exact workersInv_leaves rfl fun q w found => (inv.joined q w (here ▸ trivial) found).mono _
  | tearsDown next here more =>
    refine ⟨nofun, fun q w _ found => (inv.joined q w (here ▸ trivial) found).mono _, ?_⟩
    intro q w past found
    -- Either torn down before or just now, and joined in both cases.
    rcases Nat.lt_succ_iff_lt_or_eq.mp past with before | rfl
    · exact (inv.down q w (here ▸ before) found).mono _
    · exact (inv.joined q w (here ▸ trivial) found).tornDown
  | closes here | umounts here =>
    exact ⟨nofun, fun q w _ found => (inv.joined q w (here ▸ trivial) found).mono _,
      fun q w _ found => (inv.down q w (here ▸ trivial) found).mono _⟩

/-- `run()` stays where it is, and what it has joined stays joined. -/
theorem WorkersInv.stays (inv : WorkersInv s) (main : s'.main = s.main)
    (idle : ∀ (q : Nat) (w : Worker), s.workers[q]? = some w → ¬w.pc.Running →
      s'.workers[q]? = some w)
    (count : s'.workers.length = s.workers.length) (more : List SessionEvent)
    (log : s'.log = s.log ++ more) : WorkersInv s' := by
  -- A worker `run()` has joined is the one it was.
  have same (q : Nat) (w : Worker) (past : s.main.PastJoin q) (found : s'.workers[q]? = some w) :
      s.workers[q]? = some w := by
    obtain ⟨bound, -⟩ := List.getElem?_eq_some_iff.mp found
    have present : s.workers[q]? = some s.workers[q] :=
      List.getElem?_eq_getElem (count ▸ bound)
    have kept := idle q _ present (inv.joined q _ past present).not_running
    rw [present, ← kept, found]
  -- The rings are torn down after every worker is joined.
  have joins (q : Nat) (past : s.main.PastTeardown q) : s.main.PastJoin q := by
    revert past
    cases s.main <;> first | exact fun _ => trivial | nofun
  refine ⟨?_, ?_, ?_⟩
  · intro fresh
    rw [main] at fresh
    apply List.eq_nil_of_length_eq_zero
    rw [count, inv.fresh fresh, List.length_nil]
  · intro q w past found
    rw [main] at past
    rw [log]
    exact (inv.joined q w past (same q w past found)).mono more
  · intro q w past found
    rw [main] at past
    rw [log]
    exact (inv.down q w past (same q w (joins q past) found)).mono more

end Workers

/-! ### The mount -/

/-- The events the guard of the mount answers for. -/
def SessionEvent.ofMount : SessionEvent → Bool
  | .moved | .devClosed | .umounted => true
  | .joined _ | .ringDown _ | .initSucceeded | .destroyed => false

def Session.mountEvents (s : Session) : List SessionEvent := s.log.filter SessionEvent.ofMount

/-- Where `run()` may hold an installed mount. -/
def MainPc.holdsMount : MainPc → Bool
  | .acquireDev | .makeEfd | .mountOpen | .startWorkers | .launch _ | .spawnMounter
  | .guardUmount | .returned => false
  | .joinMounter | .checkMount | .checkStopping | .checkInit | .stopStore _ | .stopCheck _
  | .stopWrite _ | .joinWorkers .. | .destroy | .teardown _ | .guardClose => true

/-- `run()` is past the first half of its guard. -/
def MainPc.guarded : MainPc → Bool
  | .guardUmount | .returned => true
  | _ => false

/-- What has been seen of the mount, by the place of `run()`. -/
inductive MountLog (s : Session) : Prop where
  | absent (clear : s.mountInstalled = false) (events : s.mountEvents = [])
      (before : s.main ≠ .guardUmount)
  | installed (flag : s.mountInstalled = true) (events : s.mountEvents = [.moved])
      (holds : s.main.holdsMount = true)
  | closed (flag : s.mountInstalled = true) (events : s.mountEvents = [.moved, .devClosed])
      (here : s.main = .guardUmount)
  | dropped (clear : s.mountInstalled = false)
      (events : s.mountEvents = [.moved, .devClosed, .umounted]) (here : s.main = .returned)

structure MountInv (s : Session) : Prop where
  mounting : s.mounter.active = true → s.main = .joinMounter
  moving : s.mountInstalled = true → s.mounter = .finish ∨ s.mounter = .exited
  log : MountLog s

theorem mountInv_initial : MountInv {} where
  mounting active := by cases active
  moving flag := by cases flag
  log := .absent rfl rfl nofun

section Mount

variable {s s' : Session} {nqueues : Nat} {ok : Bool}

theorem mountEvents_foreign {e : SessionEvent} (foreign : e.ofMount = false) :
    (s.log ++ [e]).filter SessionEvent.ofMount = s.mountEvents := by
  simp [Session.mountEvents, foreign]

theorem mountEvents_own {e : SessionEvent} (own : e.ofMount = true) :
    (s.log ++ [e]).filter SessionEvent.ofMount = s.mountEvents ++ [e] := by
  simp [Session.mountEvents, own]

/-- While the mounter runs, `run()` waits for it. -/
theorem MountInv.idle (inv : MountInv s) (elsewhere : s.main ≠ .joinMounter) :
    s.mounter.active ≠ true := mt inv.mounting elsewhere

/-- Nothing happens to the mount, and `run()` stays on the same side of its guard. -/
theorem MountLog.passes (seen : MountLog s) (source : s.main.guarded = false)
    (target : s'.main.guarded = false)
    (holds : s.main.holdsMount = true → s'.main.holdsMount = true)
    (flag : s'.mountInstalled = s.mountInstalled) (events : s'.mountEvents = s.mountEvents) :
    MountLog s' := by
  cases seen with
  | absent clear none before =>
    refine .absent (flag.trans clear) (events.trans none) ?_
    intro is
    rw [is] at target
    cases target
  | installed set moved held => exact .installed (flag.trans set) (events.trans moved) (holds held)
  | closed _ _ here | dropped _ _ here =>
    rw [here] at source
    cases source

/-- A step of `run()` that does nothing to the mount or the mounter. -/
theorem MountInv.goes {pc : MainPc} (inv : MountInv s) (here : s.main = pc)
    (source : pc.guarded = false ∧ pc ≠ .joinMounter) (target : s'.main.guarded = false)
    (holds : pc.holdsMount = true → s'.main.holdsMount = true) (mounter : s'.mounter = s.mounter)
    (flag : s'.mountInstalled = s.mountInstalled) (events : s'.mountEvents = s.mountEvents) :
    MountInv s' := by
  subst here
  refine ⟨?_, ?_, inv.log.passes source.1 target holds flag events⟩
  · intro active
    rw [mounter] at active
    exact absurd active (inv.idle source.2)
  · rw [flag, mounter]
    exact inv.moving

theorem MountInv.jumps {pc : MainPc} (inv : MountInv s) (jump : s.Jump nqueues pc) :
    MountInv (s.setMain pc) := by
  cases jump with
  | mounterJoined here ended =>
    refine ⟨?_, inv.moving, inv.log.passes (here ▸ rfl) rfl (fun _ => rfl) rfl rfl⟩
    intro active
    rw [show (s.setMain .checkMount).mounter = .exited from ended] at active
    cases active
  | notInstalled here absent =>
    have idle := inv.idle (by rw [here]; nofun)
    refine ⟨fun active => absurd active idle, inv.moving, ?_⟩
    cases inv.log with
    -- Nothing was installed, so the guard has nothing to do.
    | absent clear none before => exact .absent clear none nofun
    | installed set | closed set =>
      rw [absent] at set
      cases set
    | dropped clear seen ended =>
      rw [here] at ended
      cases ended
  | opened here | startFailed here | staffed here | allLaunched _ here =>
    exact inv.goes here ⟨rfl, nofun⟩ rfl nofun rfl rfl rfl
  | mountFailed here | mountDone here | stopSeen here | goesOn here | initSeen here
  | initMissing here | efdFound _ here | efdMissing _ here | skipped _ _ _ here
  | allJoined _ here | allDown _ here =>
    exact inv.goes here ⟨rfl, nofun⟩ rfl (fun _ => rfl) rfl rfl rfl

/-- The guard closes the device under an installed mount. -/
theorem MountInv.closes (inv : MountInv s) (here : s.main = .guardClose)
    (installed : s.mountInstalled = true) :
    MountInv { s with
      devOpen := false
      connected := false
      main := .guardUmount
      log := s.log ++ [.devClosed] } := by
  have idle := inv.idle (by rw [here]; nofun)
  refine ⟨fun active => absurd active idle, inv.moving, ?_⟩
  cases inv.log with
  | absent clear =>
    rw [installed] at clear
    cases clear
  | installed set seen =>
    exact .closed set ((mountEvents_own rfl).trans (congrArg (· ++ [_]) seen)) rfl
  | closed _ _ ended | dropped _ _ ended =>
    rw [here] at ended
    cases ended

/-- The guard drops the mount. -/
theorem MountInv.umounts (inv : MountInv s) (here : s.main = .guardUmount) :
    MountInv { s with
      mountInstalled := false
      main := .returned
      log := s.log ++ [.umounted] } := by
  have idle := inv.idle (by rw [here]; nofun)
  refine ⟨fun active => absurd active idle, nofun, ?_⟩
  cases inv.log with
  -- `run()` is in the second half of the guard, so there was a mount.
  | absent clear none before => exact absurd here before
  | closed set seen =>
    exact .dropped rfl ((mountEvents_own rfl).trans (congrArg (· ++ [_]) seen)) rfl
  | installed set seen holds =>
    rw [here] at holds
    cases holds
  | dropped clear seen ended =>
    rw [here] at ended
    cases ended

theorem MountInv.main (inv : MountInv s) (step : s.MainStep nqueues s') : MountInv s' := by
  cases step with
  | jumps pc jump => exact inv.jumps jump
  | givesUp why here =>
    rcases here with here | here | here <;>
      exact inv.goes here ⟨rfl, nofun⟩ rfl nofun rfl rfl rfl
  | acquires here | makesEfd here | launches _ here =>
    exact inv.goes here ⟨rfl, nofun⟩ rfl nofun rfl rfl rfl
  | starts here => exact inv.goes here ⟨rfl, nofun⟩ (here ▸ rfl) nofun rfl rfl rfl
  | spawns here =>
    refine ⟨fun _ => rfl, ?_, inv.log.passes (here ▸ rfl) rfl (fun _ => rfl) rfl rfl⟩
    intro flag
    -- Nothing can be installed before there is a mounter.
    cases inv.log with
    | absent clear =>
      rw [show s.mountInstalled = true from flag] at clear
      cases clear
    | installed _ _ holds =>
      rw [here] at holds
      cases holds
    | closed _ _ ended | dropped _ _ ended =>
      rw [here] at ended
      cases ended
  | stores _ here | writes _ here | returns _ _ _ here =>
    exact inv.goes here ⟨rfl, nofun⟩ rfl (fun _ => rfl) rfl rfl rfl
  | joins _ _ _ _ here | destroys here | tearsDown _ here =>
    exact inv.goes here ⟨rfl, nofun⟩ rfl (fun _ => rfl) rfl rfl (mountEvents_foreign rfl)
  | closes here installed => exact inv.closes here installed
  | umounts here => exact inv.umounts here

theorem MountInv.mounter (inv : MountInv s) (step : s.MounterStep ok s') : MountInv s' := by
  have waits := inv.mounting step.active
  have kept {v : Session} (main : v.main = s.main) (flag : v.mountInstalled = s.mountInstalled)
      (events : v.mountEvents = s.mountEvents) : MountLog v := by
    refine inv.log.passes (waits ▸ rfl) ?_ ?_ flag events
    · rw [main, waits]
      rfl
    · rw [main]
      exact id
  -- The flag is only set by the step after `move_mount`.
  have absent (here : s.mounter ≠ .finish ∧ s.mounter ≠ .exited) : s.mountInstalled ≠ true :=
    fun flag => (inv.moving flag).elim here.1 here.2
  cases step with
  | created here | mounts here =>
    refine ⟨fun _ => waits, fun flag => absurd flag (absent ?_), kept rfl rfl rfl⟩
    rw [here]
    exact ⟨nofun, nofun⟩
  | fails here => exact ⟨fun _ => waits, fun _ => .inl rfl, kept rfl rfl rfl⟩
  | finishes here => exact ⟨fun _ => waits, fun _ => .inr rfl, kept rfl rfl rfl⟩
  | moves here =>
    refine ⟨fun _ => waits, fun _ => .inl rfl, ?_⟩
    have clear : s.mountInstalled ≠ true := absent (by rw [here]; exact ⟨nofun, nofun⟩)
    cases inv.log with
    | absent _ none before =>
      exact .installed rfl ((mountEvents_own rfl).trans (congrArg (· ++ [_]) none)) (waits ▸ rfl)
    | installed set | closed set => exact absurd set clear
    | dropped _ _ ended =>
      rw [waits] at ended
      cases ended

/-- Neither `run()` nor the mounter does anything. -/
theorem MountInv.stays (inv : MountInv s) (main : s'.main = s.main)
    (mounter : s'.mounter = s.mounter) (flag : s'.mountInstalled = s.mountInstalled)
    (events : s'.mountEvents = s.mountEvents) : MountInv s' := by
  refine ⟨by rw [main, mounter]; exact inv.mounting, by rw [flag, mounter]; exact inv.moving, ?_⟩
  cases inv.log with
  | absent clear none before => exact .absent (flag.trans clear) (events.trans none) (main ▸ before)
  | installed set seen holds =>
    exact .installed (flag.trans set) (events.trans seen) (main ▸ holds)
  | closed set seen here => exact .closed (flag.trans set) (events.trans seen) (main.trans here)
  | dropped clear seen here =>
    exact .dropped (flag.trans clear) (events.trans seen) (main.trans here)

end Mount

/-! ### The main result -/

structure UnwindInv (s : Session) : Prop where
  workers : WorkersInv s
  mount : MountInv s

theorem unwindInv_initial : UnwindInv {} := ⟨workersInv_initial, mountInv_initial⟩

section Steps

variable {s s' : Session} {nqueues : Nat}

/-- Neither `run()` nor the mounter does anything, and the workers that run at most report
the success of `fs->init`. -/
theorem UnwindInv.stays {a : SessionAction} (inv : UnwindInv s)
    (control : s'.toControl = s.toControl) (background : s.Background a s') : UnwindInv s' := by
  have main : s'.main = s.main := congrArg Control.main control
  have mounter : s'.mounter = s.mounter := congrArg Control.mounter control
  have flag : s'.mountInstalled = s.mountInstalled := congrArg Control.mountInstalled control
  rcases background.init with ⟨log, -⟩ | init
  · refine ⟨inv.workers.stays main background.idle background.count [] ?_,
      inv.mount.stays main mounter flag ?_⟩
    · rw [log, List.append_nil]
    · rw [Session.mountEvents, log, Session.mountEvents]
  · refine ⟨inv.workers.stays main background.idle background.count _ init.logged,
      inv.mount.stays main mounter flag ?_⟩
    rw [Session.mountEvents, init.logged]
    exact mountEvents_foreign rfl

theorem UnwindInv.step {a : SessionAction} (inv : UnwindInv s)
    (taken : s.next nqueues a = some s') : UnwindInv s' := by
  cases Session.next_step taken with
  | main ok step => exact ⟨inv.workers.main step, inv.mount.main step⟩
  | mounter ok step =>
    refine ⟨?_, inv.mount.mounter step⟩
    cases step with
    | created | fails | mounts | finishes =>
      exact inv.workers.stays rfl (fun _ _ found _ => found) rfl [] (List.append_nil _).symm
    | moves => exact inv.workers.stays rfl (fun _ _ found _ => found) rfl [.moved] rfl
  | call step =>
    cases step with
    | stores | finds | misses | writes =>
      exact ⟨inv.workers.stays rfl (fun _ _ found _ => found) rfl [] (List.append_nil _).symm,
        inv.mount.stays rfl rfl rfl rfl⟩
  | others effect background => exact inv.stays effect.control background

theorem unwindInv_reachable (reachable : (sessionMachine nqueues).Reachable s) : UnwindInv s :=
  reachable.invariant UnwindInv
    (fun v (initial : v = {}) => initial ▸ unwindInv_initial)
    fun _ _ _ _ inv taken => inv.step taken

end Steps

/-- What `run()` leaves behind: every thread joined and every ring down, the mount dropped
exactly once if there was one, and only after the device was closed. -/
structure Session.Unwound (s : Session) : Prop where
  joined : ∀ (q : Nat) (w : Worker), s.workers[q]? = some w → w.Joined s.log q
  down : ∀ (q : Nat) (w : Worker), s.workers[q]? = some w → w.TornDown s.log q
  dropped : .moved ∈ s.log →
    [.moved, .devClosed, .umounted].Sublist s.log ∧ s.log.count .umounted = 1
  untouched : .moved ∉ s.log → .umounted ∉ s.log
  clear : s.mountInstalled = false

theorem mem_mountEvents {s : Session} {e : SessionEvent} (own : e.ofMount = true) :
    e ∈ s.mountEvents ↔ e ∈ s.log := by
  simp [Session.mountEvents, own]

/-- However `run()` comes to return, it has unwound what it set up. -/
theorem run_unwinds (nqueues : Nat) (s : Session)
    (reachable : (sessionMachine nqueues).Reachable s) (returned : s.main = .returned) :
    s.Unwound := by
  have inv := unwindInv_reachable reachable
  have joined (q : Nat) (w : Worker) (found : s.workers[q]? = some w) : w.Joined s.log q :=
    inv.workers.joined q w (returned ▸ trivial) found
  have down (q : Nat) (w : Worker) (found : s.workers[q]? = some w) : w.TornDown s.log q :=
    inv.workers.down q w (returned ▸ trivial) found
  cases inv.mount.log with
  | absent clear events =>
    have unseen (e : SessionEvent) (own : e.ofMount = true) : e ∉ s.log := by
      rw [← mem_mountEvents own, events]
      exact List.not_mem_nil
    exact ⟨joined, down, fun moved => absurd moved (unseen .moved rfl),
      fun _ => unseen .umounted rfl, clear⟩
  | dropped clear events =>
    have order : [.moved, .devClosed, .umounted].Sublist s.log := events ▸ List.filter_sublist
    -- The mount events are a part of the log that has every `umounted`.
    have once : s.log.count .umounted = 1 := by
      rw [← List.count_filter (p := SessionEvent.ofMount) rfl]
      exact congrArg (List.count .umounted) events
    have moved : .moved ∈ s.log := order.subset (by simp)
    exact ⟨joined, down, fun _ => ⟨order, once⟩, fun absent => absurd moved absent, clear⟩
  | installed _ _ holds =>
    rw [returned] at holds
    cases holds
  | closed _ _ here =>
    rw [returned] at here
    cases here

/-- From the finished mount to the return of `run()`, after a `stop()`. -/
def stopActions : List SessionAction :=
  List.replicate 4 (.main true) ++ [.stopStore, .stopCheck, .stopWrite, .exit 0 .stopped] ++
    List.replicate 7 (.main true)

/-- What is left of a session that was mounted, served and stopped. -/
def stoppedSession : Session :=
  { main := .returned
    mounter := .exited
    stopEfd := some 1
    stopping := true
    workers := [{ pc := .left .stopped }]
    initDone := true
    connected := false
    answered := 3
    log := [.initSucceeded, .moved, .joined 0, .destroyed, .ringDown 0, .devClosed, .umounted] }

theorem run_unwinds_stopped : .moved ∈ stoppedSession.log ∧ stoppedSession.Unwound := by
  refine ⟨by decide, run_unwinds 1 stoppedSession ?_ rfl⟩
  exact ReachableBy.exec (.start rfl) (bootActions ++ mountActions ++ stopActions)
    (fun _ _ _ => trivial) rfl

end Fex
