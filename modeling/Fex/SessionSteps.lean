import Fex.Session

/-!
# What the steps of a session do

The functions of the session's model are taken apart once: `MainStep` and `MounterStep`
list what the threads in `run()` and in the mounter can do, each with what must hold for
it, and `Peripheral` and `Background` say what the workers and the kernel may change. The
invariants of the session are shown by cases on `Step`, which puts them together.
-/
namespace Fex

open Foundation

/-! ### What run() and the mounter do -/

namespace Session

/-- The steps of the thread in `run()` that only take it to another place. -/
inductive Jump (nqueues : Nat) (s : Session) : MainPc → Prop where
  | opened (here : s.main = .mountOpen) : Jump nqueues s .startWorkers
  | startFailed (here : s.main = .startWorkers) : Jump nqueues s (.stopStore .startFailed)
  | staffed (here : s.main = .startWorkers) (all : nqueues ≤ s.workers.length) :
      Jump nqueues s (.launch 0)
  | allLaunched (q : Nat) (here : s.main = .launch q) : Jump nqueues s .spawnMounter
  | mounterJoined (here : s.main = .joinMounter) (ended : s.mounter = .exited) :
      Jump nqueues s .checkMount
  | mountFailed (here : s.main = .checkMount) (failed : s.mountEc = true) :
      Jump nqueues s (.stopStore .mountFailed)
  | mountDone (here : s.main = .checkMount) (done : s.mountEc = false) :
      Jump nqueues s .checkStopping
  | stopSeen (here : s.main = .checkStopping) (set : s.stopping = true) :
      Jump nqueues s (.joinWorkers .stopRequested 0)
  | goesOn (here : s.main = .checkStopping) (unset : s.stopping = false) :
      Jump nqueues s .checkInit
  | initSeen (here : s.main = .checkInit) (done : s.initDone = true) :
      Jump nqueues s (.joinWorkers .drained 0)
  | initMissing (here : s.main = .checkInit) (missing : s.initDone = false) :
      Jump nqueues s (.stopStore .initMissing)
  | efdFound (why : Cause) (here : s.main = .stopCheck why) (efd : s.stopEfd ≠ none) :
      Jump nqueues s (.stopWrite why)
  | efdMissing (why : Cause) (here : s.main = .stopCheck why) (efd : s.stopEfd = none) :
      Jump nqueues s (.joinWorkers why 0)
  | skipped (why : Cause) (q : Nat) (w : Worker) (here : s.main = .joinWorkers why q)
      (found : s.workers[q]? = some w) (unborn : w.pc = .started) :
      Jump nqueues s (.joinWorkers why (q + 1))
  | allJoined (q : Nat) (here : s.main = .joinWorkers .drained q)
      (all : s.workers.length ≤ q) : Jump nqueues s .destroy
  | allDown (q : Nat) (here : s.main = .teardown q) (all : s.workers.length ≤ q) :
      Jump nqueues s .guardClose
  | notInstalled (here : s.main = .guardClose) (absent : s.mountInstalled = false) :
      Jump nqueues s .returned

/-- The steps of the thread in `run()`, told apart by their effect. -/
inductive MainStep (nqueues : Nat) (s : Session) : Session → Prop where
  | jumps (pc : MainPc) (jump : s.Jump nqueues pc) : MainStep nqueues s (s.setMain pc)
  | givesUp (why : RunError)
      (here : s.main = .acquireDev ∨ s.main = .makeEfd ∨ s.main = .mountOpen) :
      MainStep nqueues s (s.leave (some why))
  | acquires (here : s.main = .acquireDev) :
      MainStep nqueues s { s with devOpen := true, main := .makeEfd }
  | makesEfd (here : s.main = .makeEfd) :
      MainStep nqueues s { s with stopEfd := some 0, main := .mountOpen }
  | starts (here : s.main = .startWorkers) (more : s.workers.length < nqueues) :
      MainStep nqueues s { s with workers := s.workers ++ [{}] }
  | launches (q : Nat) (here : s.main = .launch q) :
      MainStep nqueues s { s with
        workers := s.workers.modify q fun w => { w with pc := .waiting }
        main := .launch (q + 1) }
  | spawns (here : s.main = .spawnMounter) :
      MainStep nqueues s { s with mounter := .create, main := .joinMounter }
  | stores (why : Cause) (here : s.main = .stopStore why) :
      MainStep nqueues s { s with stopping := true, main := .stopCheck why }
  | writes (why : Cause) (here : s.main = .stopWrite why) :
      MainStep nqueues s { s with
        stopEfd := s.stopEfd.map (· + 1)
        main := .joinWorkers why 0 }
  | joins (why : Cause) (q : Nat) (w : Worker) (out : WorkerExit)
      (here : s.main = .joinWorkers why q) (found : s.workers[q]? = some w)
      (ended : w.pc = .left out) :
      MainStep nqueues s { s with
        main := .joinWorkers why (q + 1)
        log := s.log ++ [.joined q] }
  | returns (why : Cause) (q : Nat) (result : Option RunError)
      (here : s.main = .joinWorkers why q) (all : s.workers.length ≤ q)
      (undrained : why ≠ .drained) :
      MainStep nqueues s (s.leave result)
  | destroys (here : s.main = .destroy) (result : Option RunError) :
      MainStep nqueues s (leave { s with log := s.log ++ [.destroyed] } result)
  | tearsDown (q : Nat) (here : s.main = .teardown q) (more : q < s.workers.length) :
      MainStep nqueues s { s with main := .teardown (q + 1), log := s.log ++ [.ringDown q] }
  | closes (here : s.main = .guardClose) (installed : s.mountInstalled = true) :
      MainStep nqueues s { s with
        devOpen := false
        connected := false
        main := .guardUmount
        log := s.log ++ [.devClosed] }
  | umounts (here : s.main = .guardUmount) :
      MainStep nqueues s { s with
        mountInstalled := false
        main := .returned
        log := s.log ++ [.umounted] }

variable {nqueues : Nat} {s s' : Session} {ok : Bool}

theorem join_step {why : Cause} {q : Nat} (here : s.main = .joinWorkers why q)
    (taken : s.join why q = some s') : MainStep nqueues s s' := by
  unfold join at taken
  cases found : s.workers[q]? with
  | none =>
    -- Past the last worker: what follows depends on why they were joined.
    have all : s.workers.length ≤ q := List.getElem?_eq_none_iff.mp found
    simp only [found, Option.some.injEq] at taken
    subst taken
    cases why with
    | drained => exact .jumps .destroy (.allJoined q here all)
    | startFailed | mountFailed | stopRequested | initMissing =>
      exact .returns _ q _ here all nofun
  | some w =>
    cases pc : w.pc with
    | started =>
      simp only [found, pc, Option.some.injEq] at taken
      subst taken
      exact .jumps _ (.skipped why q w here found pc)
    | left out =>
      simp only [found, pc, Option.some.injEq] at taken
      subst taken
      exact .joins why q w out here found pc
    -- `join()` blocks.
    | waiting | handling | committing => simp [found, pc] at taken

theorem mainNext_step (taken : s.mainNext nqueues ok = some s') : MainStep nqueues s s' := by
  unfold mainNext at taken
  cases here : s.main with
  | acquireDev =>
    rw [here] at taken
    cases ok with
    | true => cases taken; exact .acquires here
    | false => cases taken; exact .givesUp .device (.inl here)
  | makeEfd =>
    rw [here] at taken
    cases ok with
    | true => cases taken; exact .makesEfd here
    | false => cases taken; exact .givesUp .eventfd (.inr (.inl here))
  | mountOpen =>
    rw [here] at taken
    cases ok with
    | true => cases taken; exact .jumps _ (.opened here)
    | false => cases taken; exact .givesUp .mountOpen (.inr (.inr here))
  | startWorkers =>
    rw [here] at taken
    dsimp only at taken
    split at taken
    next more =>
      cases ok with
      | true => cases taken; exact .starts here more
      | false => cases taken; exact .jumps _ (.startFailed here)
    next all =>
      cases taken
      exact .jumps _ (.staffed here (Nat.le_of_not_lt all))
  | launch q =>
    rw [here] at taken
    dsimp only at taken
    split at taken
    · cases taken
      exact .launches q here
    · cases taken
      exact .jumps _ (.allLaunched q here)
  | spawnMounter =>
    rw [here] at taken
    cases taken
    exact .spawns here
  | joinMounter =>
    rw [here] at taken
    obtain ⟨ended, taken⟩ := Option.ite_none_right_eq_some.mp taken
    cases taken
    exact .jumps _ (.mounterJoined here ended)
  | checkMount =>
    rw [here] at taken
    cases flag : s.mountEc with
    | true => simp only [flag] at taken; cases taken; exact .jumps _ (.mountFailed here flag)
    | false => simp only [flag] at taken; cases taken; exact .jumps _ (.mountDone here flag)
  | checkStopping =>
    rw [here] at taken
    cases flag : s.stopping with
    | true => simp only [flag] at taken; cases taken; exact .jumps _ (.stopSeen here flag)
    | false => simp only [flag] at taken; cases taken; exact .jumps _ (.goesOn here flag)
  | checkInit =>
    rw [here] at taken
    cases flag : s.initDone with
    | true => simp only [flag] at taken; cases taken; exact .jumps _ (.initSeen here flag)
    | false => simp only [flag] at taken; cases taken; exact .jumps _ (.initMissing here flag)
  | stopStore why =>
    rw [here] at taken
    cases taken
    exact .stores why here
  | stopCheck why =>
    rw [here] at taken
    cases efd : s.stopEfd with
    | none =>
      simp only [efd] at taken
      cases taken
      exact .jumps _ (.efdMissing why here efd)
    | some count =>
      simp only [efd] at taken
      cases taken
      exact .jumps _ (.efdFound why here (by rw [efd]; nofun))
  | stopWrite why =>
    rw [here] at taken
    cases taken
    exact .writes why here
  | joinWorkers why q =>
    rw [here] at taken
    exact join_step here taken
  | destroy =>
    rw [here] at taken
    cases taken
    exact .destroys here _
  | teardown q =>
    rw [here] at taken
    dsimp only at taken
    split at taken
    next more =>
      cases taken
      exact .tearsDown q here more
    next all =>
      cases taken
      exact .jumps _ (.allDown q here (Nat.le_of_not_lt all))
  | guardClose =>
    rw [here] at taken
    dsimp only at taken
    split at taken
    next installed =>
      cases taken
      exact .closes here installed
    next absent =>
      cases taken
      exact .jumps _ (.notInstalled here (Bool.eq_false_iff.mpr absent))
  | guardUmount =>
    rw [here] at taken
    cases taken
    exact .umounts here
  | returned =>
    rw [here] at taken
    cases taken

/-- The steps of the mounter. -/
inductive MounterStep (s : Session) : Bool → Session → Prop where
  | created (here : s.mounter = .create) (served : s.answered = 3) (idle : s.outstanding = none) :
      MounterStep s true { s with mounter := .fsmount }
  | fails (here : s.mounter = .create ∨ s.mounter = .fsmount ∨ s.mounter = .moveMount) :
      MounterStep s false s.mountFails
  | mounts (here : s.mounter = .fsmount) : MounterStep s true { s with mounter := .moveMount }
  | moves (here : s.mounter = .moveMount) :
      MounterStep s true { s with
        mounter := .finish
        mountInstalled := true
        log := s.log ++ [.moved] }
  | finishes (here : s.mounter = .finish) (ok : Bool) :
      MounterStep s ok { s with stopping := s.stopping || s.mountEc, mounter := .exited }

theorem mounterNext_step (taken : s.mounterNext ok = some s') : MounterStep s ok s' := by
  unfold mounterNext at taken
  cases here : s.mounter with
  | unborn | exited =>
    rw [here] at taken
    cases taken
  | create =>
    rw [here] at taken
    cases ok with
    | true =>
      obtain ⟨⟨served, idle⟩, taken⟩ := Option.ite_none_right_eq_some.mp taken
      cases taken
      exact .created here served idle
    | false =>
      obtain ⟨-, taken⟩ := Option.ite_none_right_eq_some.mp taken
      cases taken
      exact .fails (.inl here)
  | fsmount =>
    rw [here] at taken
    cases ok with
    | true => cases taken; exact .mounts here
    | false => cases taken; exact .fails (.inr (.inl here))
  | moveMount =>
    rw [here] at taken
    cases ok with
    | true => cases taken; exact .moves here
    | false => cases taken; exact .fails (.inr (.inr here))
  | finish =>
    rw [here] at taken
    cases taken
    exact .finishes here ok

end Session

/-- The worker `run()` has added has not been launched. -/
theorem mem_started {workers : List Worker} {w : Worker} (member : w ∈ workers ++ [({} : Worker)]) :
    w ∈ workers ∨ w.pc = .started := by
  rcases List.mem_append.mp member with old | new
  · exact .inl old
  · rw [List.mem_singleton.mp new]
    exact .inr rfl

/-- The worker `run()` has launched waits for its first completion. -/
theorem mem_launched {workers : List Worker} {q : Nat} {w : Worker}
    (member : w ∈ workers.modify q fun w => { w with pc := .waiting }) :
    w ∈ workers ∨ w.pc = .waiting := by
  obtain ⟨i, bound, rfl⟩ := List.mem_iff_getElem.mp member
  rw [List.getElem_modify]
  split
  · exact .inr rfl
  · exact .inl (List.getElem_mem _)

/-! ### What the workers and the kernel do -/

namespace Session

variable {s s' : Session}

/-- Worker `q` has moved from `source` to `target`. -/
structure WorkerMoves (s s' : Session) (q : Nat) (source target : WorkerPc) : Prop where
  control : s'.toControl = s.toControl
  connected : s'.connected = s.connected
  moved : ∃ w ec, s.workers[q]? = some w ∧ w.pc = source ∧
    s'.workers = s.workers.set q { pc := target, ec := ec }

theorem WorkerMoves.count {q : Nat} {source target : WorkerPc}
    (moves : WorkerMoves s s' q source target) : s'.workers.length = s.workers.length := by
  obtain ⟨_, _, _, _, list⟩ := moves.moved
  rw [list, List.length_set]

theorem WorkerMoves.mem {q : Nat} {source target : WorkerPc} {w : Worker}
    (moves : WorkerMoves s s' q source target) (member : w ∈ s'.workers) :
    w ∈ s.workers ∨ w.pc = target := by
  obtain ⟨_, _, _, _, list⟩ := moves.moved
  rw [list] at member
  rcases List.mem_or_eq_of_mem_set member with old | rfl
  · exact .inl old
  · exact .inr rfl

theorem WorkerMoves.of_move {q : Nat} {source target : WorkerPc} {fails : Bool}
    (moved : s.move q source target fails = some s') : WorkerMoves s s' q source target := by
  unfold move at moved
  cases found : s.workers[q]? with
  | none => simp [found] at moved
  | some w =>
    simp only [found, Option.ite_none_right_eq_some, Option.some.injEq] at moved
    obtain ⟨here, rfl⟩ := moved
    exact ⟨rfl, rfl, w, _, found, here, rfl⟩

/-- What is done besides the move is of no consequence here. -/
theorem WorkerMoves.of_map {q : Nat} {source target : WorkerPc} {also : Session → Session}
    (moved : (s.move q source target).map also = some s')
    (control : ∀ v, (also v).toControl = v.toControl)
    (connected : ∀ v, (also v).connected = v.connected)
    (workers : ∀ v, (also v).workers = v.workers) : WorkerMoves s s' q source target := by
  obtain ⟨v, first, rfl⟩ := Option.map_eq_some_iff.mp moved
  obtain ⟨same, unclosed, w, ec, found, here, list⟩ := of_move first
  exact ⟨(control v).trans same, (connected v).trans unclosed, w, ec, found, here,
    (workers v).trans list⟩

/-- What worker `q` needs to leave its loop. -/
def Permits (s : Session) (a : SessionAction) (q : Nat) : WorkerExit → Prop
  | .stopped => s.Written
  | .gone => s.connected = false
  | .failed => a = .exit q .failed

/-- The steps of the workers and of the kernel, told apart by their effect. -/
inductive Peripheral (s : Session) (a : SessionAction) (s' : Session) : Prop where
  | kernel (control : s'.toControl = s.toControl) (workers : s'.workers = s.workers)
      (closes : s'.connected = true → s.connected = true)
  | works (q : Nat) (source target : WorkerPc) (moves : WorkerMoves s s' q source target)
      (running : target.Running)
  | exits (q : Nat) (source : WorkerPc) (why : WorkerExit)
      (moves : WorkerMoves s s' q source (.left why)) (permits : s.Permits a q why)

theorem Peripheral.control {a : SessionAction} (step : Peripheral s a s') :
    s'.toControl = s.toControl := by
  cases step with
  | kernel control workers closes => exact control
  | works q source target moves running => exact moves.control
  | exits q source why moves permits => exact moves.control

end Session

def SessionAction.isPeripheral : SessionAction → Bool
  | .main _ | .mounter _ | .stopStore | .stopCheck | .stopWrite => false
  | .send _ | .deliver _ | .take _ | .rearm _ | .badIndex _ | .handle .. | .commit _ | .exit ..
  | .disconnect => true

namespace Session

variable {s s' : Session}

theorem exitNext_peripheral {q : Nat} {why : WorkerExit} (taken : s.exitNext q why = some s') :
    Peripheral s (.exit q why) s' := by
  cases why with
  | stopped =>
    obtain ⟨written, moved⟩ := Option.ite_none_right_eq_some.mp taken
    exact .exits q .waiting .stopped (.of_move moved) written
  | gone =>
    obtain ⟨closed, moved⟩ := Option.ite_none_left_eq_some.mp taken
    exact .exits q .waiting .gone (.of_move moved)
      (show s.connected = false by simpa using closed)
  | failed =>
    rcases Option.or_eq_some_iff.mp taken with moved | ⟨-, moved⟩
    · exact .exits q .waiting .failed (.of_move moved) rfl
    · exact .exits q .committing .failed (.of_move moved) rfl

theorem next_peripheral {nqueues : Nat} {a : SessionAction}
    (taken : s.next nqueues a = some s') (peripheral : a.isPeripheral = true) :
    Peripheral s a s' := by
  cases a with
  | main | mounter | stopStore | stopCheck | stopWrite => cases peripheral
  | send q =>
    obtain ⟨-, sent⟩ := Option.ite_none_right_eq_some.mp taken
    cases sent
    exact .kernel rfl rfl id
  | deliver q =>
    obtain ⟨-, moved⟩ := Option.ite_none_right_eq_some.mp taken
    exact .works q .waiting .handling
      (.of_map moved (fun _ => rfl) (fun _ => rfl) (fun _ => rfl)) (.inr (.inl rfl))
  | take q => exact .works q .waiting .handling (.of_move taken) (.inr (.inl rfl))
  | rearm q => exact .works q .waiting .committing (.of_move taken) (.inr (.inr rfl))
  | badIndex q => exact .works q .waiting .waiting (.of_move taken) (.inl rfl)
  | handle q outcome =>
    have handled (v : Session) : (v.handled q outcome).toControl = v.toControl ∧
        (v.handled q outcome).connected = v.connected ∧
        (v.handled q outcome).workers = v.workers := by
      unfold Session.handled
      split
      · cases outcome <;> exact ⟨rfl, rfl, rfl⟩
      · exact ⟨rfl, rfl, rfl⟩
    exact .works q .handling .committing (.of_map taken (fun v => (handled v).1)
      (fun v => (handled v).2.1) (fun v => (handled v).2.2)) (.inr (.inr rfl))
  | commit q =>
    have committed (v : Session) : (v.committed q).toControl = v.toControl ∧
        (v.committed q).connected = v.connected ∧ (v.committed q).workers = v.workers := by
      unfold Session.committed
      split <;> exact ⟨rfl, rfl, rfl⟩
    exact .works q .committing .waiting (.of_map taken (fun v => (committed v).1)
      (fun v => (committed v).2.1) (fun v => (committed v).2.2)) (.inl rfl)
  | exit q why => exact exitNext_peripheral taken
  | disconnect =>
    cases taken
    exact .kernel rfl rfl fun closed => by cases closed

/-- The INIT of the handshake is handled, and `fs->init` succeeds. -/
structure Initialises (s : Session) (a : SessionAction) (s' : Session) : Prop where
  logged : s'.log = s.log ++ [.initSucceeded]
  first : s.answered = 0
  handled : ∃ q outcome, a = .handle q outcome ∧ s.outstanding = some ⟨q, true⟩ ∧
    (outcome = .mismatch ∨ outcome = .accepted ∧ s'.initDone = true)

/-- What a step of the workers or the kernel may change: the workers that run, the
handshake while `CMD_CREATE` waits, and the log if `fs->init` succeeds. -/
structure Background (s : Session) (a : SessionAction) (s' : Session) : Prop where
  idle : ∀ (q : Nat) (w : Worker), s.workers[q]? = some w → ¬w.pc.Running → s'.workers[q]? = some w
  count : s'.workers.length = s.workers.length
  handshake : s.mounter ≠ .create → s.outstanding = none →
    s'.outstanding = none ∧ s'.answered = s.answered
  init : s'.log = s.log ∧ s'.initDone = s.initDone ∨ s.Initialises a s'

/-- A worker that runs moves: the others stay where they are. -/
theorem move_idle {q : Nat} {source target : WorkerPc} {fails : Bool}
    (moved : s.move q source target fails = some s') (running : source.Running) :
    (∀ (i : Nat) (w : Worker), s.workers[i]? = some w → ¬w.pc.Running → s'.workers[i]? = some w) ∧
      s'.workers.length = s.workers.length ∧ s' = { s with workers := s'.workers } := by
  unfold move at moved
  cases found : s.workers[q]? with
  | none => simp [found] at moved
  | some v =>
    simp only [found, Option.ite_none_right_eq_some, Option.some.injEq] at moved
    obtain ⟨here, rfl⟩ := moved
    refine ⟨?_, List.length_set .., rfl⟩
    intro i w present stands
    -- The one that moved was running.
    have other : q ≠ i := by
      rintro rfl
      rw [found, Option.some.injEq] at present
      exact stands (present ▸ here ▸ running)
    rw [List.getElem?_set_ne other]
    exact present

/-- A move of a running worker that changes nothing else. -/
theorem Background.of_move {a : SessionAction} {q : Nat} {source target : WorkerPc} {fails : Bool}
    (moved : s.move q source target fails = some s') (running : source.Running) :
    Background s a s' := by
  obtain ⟨idle, count, rest⟩ := move_idle moved running
  rw [rest]
  exact ⟨idle, count, fun _ none => ⟨none, rfl⟩, .inl ⟨rfl, rfl⟩⟩

theorem handled_background {q : Nat} {outcome : InitOutcome}
    (taken : (s.move q .handling .committing).map (·.handled q outcome) = some s') :
    Background s (.handle q outcome) s' := by
  obtain ⟨v, moved, rfl⟩ := Option.map_eq_some_iff.mp taken
  obtain ⟨idle, count, rest⟩ := move_idle moved (.inr (.inl rfl))
  rw [rest]
  unfold Session.handled
  split
  next first =>
    -- This is the INIT of the handshake; only here can the log change.
    have pending : s.outstanding = some ⟨q, true⟩ := first.1
    refine ⟨?_, ?_, fun _ none => by simp [none] at pending, ?_⟩
    · cases outcome <;> exact idle
    · cases outcome <;> exact count
    · cases outcome with
      | refused | failed => exact .inl ⟨rfl, rfl⟩
      | mismatch => exact .inr ⟨rfl, first.2, q, _, rfl, pending, .inl rfl⟩
      | accepted => exact .inr ⟨rfl, first.2, q, _, rfl, pending, .inr ⟨rfl, rfl⟩⟩
  next => exact ⟨idle, count, fun _ none => ⟨none, rfl⟩, .inl ⟨rfl, rfl⟩⟩

theorem committed_background {q : Nat}
    (taken : (s.move q .committing .waiting).map (·.committed q) = some s') :
    Background s (.commit q) s' := by
  obtain ⟨v, moved, rfl⟩ := Option.map_eq_some_iff.mp taken
  obtain ⟨idle, count, rest⟩ := move_idle moved (.inr (.inr rfl))
  rw [rest]
  unfold Session.committed
  split
  next taken =>
    exact ⟨idle, count, fun _ none => by simp [none] at taken, .inl ⟨rfl, rfl⟩⟩
  next => exact ⟨idle, count, fun _ none => ⟨none, rfl⟩, .inl ⟨rfl, rfl⟩⟩

theorem next_background {nqueues : Nat} {a : SessionAction}
    (taken : s.next nqueues a = some s') (peripheral : a.isPeripheral = true) :
    Background s a s' := by
  cases a with
  | main | mounter | stopStore | stopCheck | stopWrite => cases peripheral
  | send q =>
    obtain ⟨⟨creating, -⟩, sent⟩ := Option.ite_none_right_eq_some.mp taken
    cases sent
    exact ⟨fun _ _ found _ => found, rfl, fun other => absurd creating other, .inl ⟨rfl, rfl⟩⟩
  | deliver q =>
    obtain ⟨pending, delivered⟩ := Option.ite_none_right_eq_some.mp taken
    obtain ⟨v, moved, rfl⟩ := Option.map_eq_some_iff.mp delivered
    obtain ⟨idle, count, rest⟩ := move_idle moved (.inl rfl)
    rw [rest]
    exact ⟨idle, count, fun _ none => by simp [none] at pending, .inl ⟨rfl, rfl⟩⟩
  | take q | rearm q | badIndex q => exact .of_move taken (.inl rfl)
  | handle q outcome => exact handled_background taken
  | commit q => exact committed_background taken
  | exit q why =>
    cases why with
    | stopped => exact .of_move (Option.ite_none_right_eq_some.mp taken).2 (.inl rfl)
    | gone => exact .of_move (Option.ite_none_left_eq_some.mp taken).2 (.inl rfl)
    | failed =>
      -- The error came while waiting or while submitting.
      rcases Option.or_eq_some_iff.mp taken with moved | ⟨-, moved⟩
      · exact .of_move moved (.inl rfl)
      · exact .of_move moved (.inr (.inr rfl))
  | disconnect =>
    cases taken
    exact ⟨fun _ _ found _ => found, rfl, fun _ none => ⟨none, rfl⟩, .inl ⟨rfl, rfl⟩⟩

/-! ### All steps -/

/-- The steps of the callers of `stop()`. -/
inductive CallStep (s : Session) : SessionAction → Session → Prop where
  | stores : CallStep s .stopStore { s with stopping := true, stored := s.stored + 1 }
  | finds (efd : s.stopEfd ≠ none) :
      CallStep s .stopCheck { s with stored := s.stored - 1, checked := s.checked + 1 }
  | misses (efd : s.stopEfd = none) : CallStep s .stopCheck { s with stored := s.stored - 1 }
  | writes (pending : 0 < s.checked) :
      CallStep s .stopWrite { s with
        checked := s.checked - 1
        stopEfd := s.stopEfd.map (· + 1) }

/-- The steps of a session by who takes them. -/
inductive Step (nqueues : Nat) (s : Session) : SessionAction → Session → Prop where
  | main {s' : Session} (ok : Bool) (step : s.MainStep nqueues s') : Step nqueues s (.main ok) s'
  | mounter {s' : Session} (ok : Bool) (step : s.MounterStep ok s') :
      Step nqueues s (.mounter ok) s'
  | call {a : SessionAction} {s' : Session} (step : s.CallStep a s') : Step nqueues s a s'
  | others {a : SessionAction} {s' : Session} (effect : s.Peripheral a s')
      (background : s.Background a s') : Step nqueues s a s'

theorem next_step {nqueues : Nat} {a : SessionAction} (taken : s.next nqueues a = some s') :
    Step nqueues s a s' := by
  cases a with
  | main ok => exact .main ok (mainNext_step taken)
  | mounter ok => exact .mounter ok (mounterNext_step taken)
  | stopStore =>
    cases taken
    exact .call .stores
  | stopCheck =>
    obtain ⟨-, taken⟩ := Option.ite_none_left_eq_some.mp taken
    split at taken
    next found =>
      cases taken
      exact .call (.finds (Option.isSome_iff_ne_none.mp found))
    next missing =>
      cases taken
      exact .call (.misses (Option.not_isSome_iff_eq_none.mp missing))
  | stopWrite =>
    obtain ⟨pending, taken⟩ := Option.ite_none_left_eq_some.mp taken
    cases taken
    exact .call (.writes (Nat.pos_of_ne_zero pending))
  | send | deliver | take | rearm | badIndex | handle | commit | exit | disconnect =>
    exact .others (next_peripheral taken rfl) (next_background taken rfl)

end Session

end Fex
