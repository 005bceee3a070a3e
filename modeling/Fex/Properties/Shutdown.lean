import Fex.Properties.MountHandshake

/-!
# Where a session can stand still, and how it ends

Some of what happens in a session is bound to happen: a thread that can go on goes on, a request
that was taken is handled, the stop poll and a closed connection are noticed. These are the
*obliged* actions. New requests, errors, calls of `stop()` and the closing of the connection are
not.

## Main results

- `session_blocked`: when no obliged action is possible, `run()` has returned, or it waits for a
  worker that has nothing to do and no reason to leave, or the mounter waits for the reply of a
  worker that has left.
- `session_shutdown`: once the eventfd is written or the connection is closed, the session takes
  a bounded number of steps, three more for each action that was not obliged, and if the
  connection is closed it cannot end but with the return of `run()`.

## Proof strategy

`Session.distance` counts what every thread still has before it. A request of the handshake pays
for the round it sends a worker through. `ProgressInv` says how far the workers and the handshake
are for each place of `run()`, which rules every other blocked state out.
-/
namespace Fex

open Foundation Machine

/-- The actions that take place sooner or later once they are possible. -/
def SessionAction.obliged : SessionAction → Bool
  | .main _ | .mounter _ | .send _ | .deliver _ | .handle .. | .commit _ | .exit _ .stopped
  | .exit _ .gone | .stopCheck | .stopWrite => true
  | .take _ | .rearm _ | .badIndex _ | .exit _ .failed | .stopStore | .disconnect => false

/-- No obliged action is possible. -/
def Session.Blocked (nqueues : Nat) (s : Session) : Prop :=
  ∀ a : SessionAction, a.obliged = true → s.next nqueues a = none

/-- The mounter waits for a reply, over an open connection, and the worker that was to give it
has left. -/
structure Session.Unserved (s : Session) : Prop where
  main : s.main = .joinMounter
  mounter : s.mounter = .create
  connected : s.connected = true
  sent : ∃ t w why, s.outstanding = some t ∧ s.workers[t.queue]? = some w ∧ w.pc = .left why

/-- `run()` waits for a worker that waits for requests. -/
structure Session.Serving (s : Session) : Prop where
  main : ∃ why q w, s.main = .joinWorkers why q ∧ s.workers[q]? = some w ∧ w.pc = .waiting
  unwritten : ¬s.Written
  connected : s.connected = true

/-! ### The distance to the end -/

def WorkerPc.distance : WorkerPc → Nat
  | .started | .left _ => 0
  | .waiting => 1
  | .committing => 2
  | .handling => 3

def workDistance : List Worker → Nat
  | [] => 0
  | w :: rest => w.pc.distance + workDistance rest

def MounterPc.distance : MounterPc → Nat
  | .unborn | .exited => 0
  | .finish => 1
  | .moveMount => 2
  | .fsmount => 3
  | .create => 4

/-- Of `run()`, with `count` of at most `nqueues` workers started. -/
def MainPc.distance (nqueues count : Nat) : MainPc → Nat
  | .returned => 0
  | .guardUmount => 1
  | .guardClose => 2
  | .teardown q => 3 + (count - q)
  | .destroy => 4 + count
  | .joinWorkers _ q => 5 + count + (count - q)
  | .stopWrite _ => 6 + 2 * count
  | .stopCheck _ => 7 + 2 * count
  | .stopStore _ => 8 + 2 * count
  | .checkInit => 9 + 2 * count
  | .checkStopping => 10 + 2 * count
  | .checkMount => 11 + 2 * count
  | .joinMounter => 12 + 2 * count
  -- It pays for the mounter.
  | .spawnMounter => 17 + 2 * count
  -- It pays for the worker it launches.
  | .launch q => 18 + 2 * count + 2 * (count - q)
  | .startWorkers => 19 + 4 * nqueues + (nqueues - count)
  | .mountOpen => 20 + 5 * nqueues
  | .makeEfd => 21 + 5 * nqueues
  | .acquireDev => 22 + 5 * nqueues

/-- Of the handshake: a request costs one to be sent, and three to be delivered. -/
def handshakeDistance (answered : Nat) : Option Sent → Nat
  | none => 4 * (3 - answered)
  | some ⟨_, false⟩ => 4 * (3 - answered) - 1
  | some ⟨_, true⟩ => 4 * (3 - answered) - 4

def Session.distance (nqueues : Nat) (s : Session) : Nat :=
  s.main.distance nqueues s.workers.length + s.mounter.distance + workDistance s.workers +
    handshakeDistance s.answered s.outstanding + 2 * s.stored + s.checked

theorem workDistance_append (workers : List Worker) :
    workDistance (workers ++ [({} : Worker)]) = workDistance workers := by
  induction workers with
  | nil => rfl
  | cons w rest ih => simp only [List.cons_append, workDistance, ih]

/-- One worker moves, and the others stay where they are. -/
theorem workDistance_set {workers : List Worker} {q : Nat} {w : Worker}
    (found : workers[q]? = some w) (v : Worker) :
    workDistance (workers.set q v) + w.pc.distance = workDistance workers + v.pc.distance := by
  induction workers generalizing q with
  | nil => cases found
  | cons head rest ih =>
    cases q with
    | zero =>
      obtain rfl : head = w := by simpa using found
      simp only [List.set_cons_zero, workDistance]
      omega
    | succ q =>
      have later := ih (q := q) (by simpa using found)
      simp only [List.set_cons_succ, workDistance]
      omega

theorem workDistance_launch (workers : List Worker) (q : Nat) :
    workDistance (workers.modify q fun w => { w with pc := .waiting }) ≤
      workDistance workers + 1 := by
  induction workers generalizing q with
  | nil => simp [workDistance]
  | cons head rest ih =>
    cases q with
    | zero =>
      simp only [List.modify_zero_cons, workDistance, WorkerPc.distance]
      omega
    | succ q =>
      have later := ih q
      simp only [List.modify_succ_cons, workDistance]
      omega

/-! ### What the workers and the kernel do, with the handshake -/

namespace Session

variable {s s' : Session}

theorem move_eq_some {q : Nat} {source target : WorkerPc} {fails : Bool}
    (moved : s.move q source target fails = some s') :
    ∃ w ec, s.workers[q]? = some w ∧ w.pc = source ∧
      s' = { s with workers := s.workers.set q { pc := target, ec := ec } } := by
  unfold move at moved
  cases found : s.workers[q]? with
  | none => simp [found] at moved
  | some w =>
    simp only [found, Option.ite_none_right_eq_some, Option.some.injEq] at moved
    exact ⟨w, _, rfl, moved.1, moved.2.symm⟩

/-- The steps of the workers and of the kernel, with what they do to the handshake. -/
inductive Round (s : Session) : SessionAction → Session → Prop where
  | sends (q : Nat) (creating : s.mounter = .create) (idle : s.outstanding = none)
      (more : s.answered < 3) (present : q < s.workers.length) :
      Round s (.send q) { s with outstanding := some ⟨q, false⟩ }
  | delivers (q : Nat) (w : Worker) (ec : Bool) (pending : s.outstanding = some ⟨q, false⟩)
      (found : s.workers[q]? = some w) (waits : w.pc = .waiting) :
      Round s (.deliver q) { s with
        workers := s.workers.set q { pc := .handling, ec := ec }
        outstanding := some ⟨q, true⟩ }
  | handles (q : Nat) (outcome : InitOutcome) (w : Worker) (ec : Bool) (initDone : Bool)
      (log : List SessionEvent) (found : s.workers[q]? = some w) (handling : w.pc = .handling) :
      Round s (.handle q outcome) { s with
        workers := s.workers.set q { pc := .committing, ec := ec }
        initDone := initDone
        log := log }
  | answers (q : Nat) (w : Worker) (ec : Bool) (pending : s.outstanding = some ⟨q, true⟩)
      (found : s.workers[q]? = some w) (commits : w.pc = .committing) :
      Round s (.commit q) { s with
        workers := s.workers.set q { pc := .waiting, ec := ec }
        outstanding := none
        answered := s.answered + 1 }
  | commits (q : Nat) (w : Worker) (ec : Bool) (other : s.outstanding ≠ some ⟨q, true⟩)
      (found : s.workers[q]? = some w) (commits : w.pc = .committing) :
      Round s (.commit q) { s with
        workers := s.workers.set q { pc := .waiting, ec := ec } }
  | moves (a : SessionAction) (q : Nat) (w : Worker) (ec : Bool) (target : WorkerPc)
      (found : s.workers[q]? = some w) (alive : target ≠ .started)
      (here : w.pc = .waiting ∨ w.pc = .committing ∧ target = .left .failed)
      (paid : target.distance + 1 ≤ w.pc.distance + if a.obliged then 0 else 3) :
      Round s a { s with workers := s.workers.set q { pc := target, ec := ec } }
  | disconnects : Round s .disconnect { s with connected := false }

theorem exitNext_round {q : Nat} {why : WorkerExit} (taken : s.exitNext q why = some s') :
    Round s (.exit q why) s' := by
  cases why with
  | stopped =>
    obtain ⟨-, moved⟩ := Option.ite_none_right_eq_some.mp taken
    obtain ⟨w, ec, found, here, rfl⟩ := move_eq_some moved
    exact .moves _ q w ec _ found nofun (.inl here) (by
        simp [here, WorkerPc.distance, SessionAction.obliged])
  | gone =>
    obtain ⟨-, moved⟩ := Option.ite_none_left_eq_some.mp taken
    obtain ⟨w, ec, found, here, rfl⟩ := move_eq_some moved
    exact .moves _ q w ec _ found nofun (.inl here) (by
        simp [here, WorkerPc.distance, SessionAction.obliged])
  | failed =>
    rcases Option.or_eq_some_iff.mp taken with moved | ⟨-, moved⟩
    · obtain ⟨w, ec, found, here, rfl⟩ := move_eq_some moved
      exact .moves _ q w ec _ found nofun (.inl here) (by
        simp [here, WorkerPc.distance, SessionAction.obliged])
    · obtain ⟨w, ec, found, here, rfl⟩ := move_eq_some moved
      exact .moves _ q w ec _ found nofun (.inr ⟨here, rfl⟩) (by
        simp [here, WorkerPc.distance, SessionAction.obliged])

theorem handled_round {q : Nat} {outcome : InitOutcome}
    (taken : (s.move q .handling .committing).map (·.handled q outcome) = some s') :
    Round s (.handle q outcome) s' := by
  obtain ⟨v, moved, rfl⟩ := Option.map_eq_some_iff.mp taken
  obtain ⟨w, ec, found, here, rfl⟩ := move_eq_some moved
  unfold Session.handled
  split
  · cases outcome <;> exact .handles q _ w ec _ _ found here
  · exact .handles q _ w ec _ _ found here

theorem committed_round {q : Nat}
    (taken : (s.move q .committing .waiting).map (·.committed q) = some s') :
    Round s (.commit q) s' := by
  obtain ⟨v, moved, rfl⟩ := Option.map_eq_some_iff.mp taken
  obtain ⟨w, ec, found, here, rfl⟩ := move_eq_some moved
  unfold Session.committed
  split
  next pending => exact .answers q w ec pending found here
  next other => exact .commits q w ec other found here

theorem next_round {nqueues : Nat} {a : SessionAction} (taken : s.next nqueues a = some s')
    (peripheral : a.isPeripheral = true) : Round s a s' := by
  cases a with
  | main | mounter | stopStore | stopCheck | stopWrite => cases peripheral
  | send q =>
    obtain ⟨⟨creating, -, idle, more, present⟩, sent⟩ := Option.ite_none_right_eq_some.mp taken
    cases sent
    exact .sends q creating idle more present
  | deliver q =>
    obtain ⟨pending, delivered⟩ := Option.ite_none_right_eq_some.mp taken
    obtain ⟨v, moved, rfl⟩ := Option.map_eq_some_iff.mp delivered
    obtain ⟨w, ec, found, here, rfl⟩ := move_eq_some moved
    exact .delivers q w ec pending found here
  | take q | rearm q | badIndex q =>
    obtain ⟨w, ec, found, here, rfl⟩ := move_eq_some taken
    exact .moves _ q w ec _ found nofun (.inl here) (by
        simp [here, WorkerPc.distance, SessionAction.obliged])
  | handle q outcome => exact handled_round taken
  | commit q => exact committed_round taken
  | exit q why => exact exitNext_round taken
  | disconnect =>
    cases taken
    exact .disconnects

/-- The steps of the callers of `stop()`, each with a call that can take it. -/
inductive Call (s : Session) : SessionAction → Session → Prop where
  | stores : Call s .stopStore { s with stopping := true, stored := s.stored + 1 }
  | finds (pending : 0 < s.stored) :
      Call s .stopCheck { s with stored := s.stored - 1, checked := s.checked + 1 }
  | misses (pending : 0 < s.stored) : Call s .stopCheck { s with stored := s.stored - 1 }
  | writes (pending : 0 < s.checked) :
      Call s .stopWrite { s with
        checked := s.checked - 1
        stopEfd := s.stopEfd.map (· + 1) }

/-- The steps of a session by who takes them, with all that `Step` leaves out. -/
inductive Turn (nqueues : Nat) (s : Session) : SessionAction → Session → Prop where
  | main {s' : Session} (ok : Bool) (taken : s.mainNext nqueues ok = some s') :
      Turn nqueues s (.main ok) s'
  | mounter {s' : Session} (ok : Bool) (step : s.MounterStep ok s') :
      Turn nqueues s (.mounter ok) s'
  | call {a : SessionAction} {s' : Session} (call : s.Call a s') : Turn nqueues s a s'
  | round {a : SessionAction} {s' : Session} (round : s.Round a s') : Turn nqueues s a s'

theorem next_turn {nqueues : Nat} {a : SessionAction} (taken : s.next nqueues a = some s') :
    Turn nqueues s a s' := by
  cases a with
  | main ok => exact .main ok taken
  | mounter ok => exact .mounter ok (mounterNext_step taken)
  | stopStore =>
    cases taken
    exact .call .stores
  | stopCheck =>
    obtain ⟨pending, taken⟩ := Option.ite_none_left_eq_some.mp taken
    split at taken
    · cases taken
      exact .call (.finds (Nat.pos_of_ne_zero pending))
    · cases taken
      exact .call (.misses (Nat.pos_of_ne_zero pending))
  | stopWrite =>
    obtain ⟨pending, taken⟩ := Option.ite_none_left_eq_some.mp taken
    cases taken
    exact .call (.writes (Nat.pos_of_ne_zero pending))
  | send | deliver | take | rearm | badIndex | handle | commit | exit | disconnect =>
    exact .round (next_round taken rfl)

end Session

/-! ### How far workers and handshake are -/

/-- `run()` has launched worker `q` and not begun to join. -/
def MainPc.Launched : MainPc → Nat → Prop
  | .launch next, q => q < next
  | .spawnMounter, _ | .joinMounter, _ => True
  | _, _ => False

/-- A worker that took a request and has not answered it. -/
def WorkerPc.Owes (pc : WorkerPc) : Prop := pc = .handling ∨ pc = .committing ∨ pc = .left .failed

/-- The request of the handshake that is outstanding. -/
structure PendingInv (s : Session) : Prop where
  idle : s.mounter = .unborn → s.outstanding = none
  more : s.outstanding ≠ none → s.answered < 3
  sent : ∀ t, s.outstanding = some t → t.queue < s.workers.length
  taken : ∀ q, s.outstanding = some ⟨q, true⟩ → ∃ w, s.workers[q]? = some w ∧ w.pc.Owes

/-- The workers and the mounter, by the place of `run()`. -/
structure PlaceInv (nqueues : Nat) (s : Session) : Prop where
  bounded : s.workers.length ≤ nqueues
  unborn : s.main.early = true → s.main = .joinMounter ∨ s.mounter = .unborn
  born : s.main = .joinMounter → s.mounter ≠ .unborn
  efd : s.main = .acquireDev ∨ s.main = .makeEfd → s.stopEfd = none
  launched : ∀ (q : Nat) (w : Worker), s.main.Launched q → s.workers[q]? = some w →
    w.pc ≠ .started

structure ProgressInv (nqueues : Nat) (s : Session) : Prop where
  place : PlaceInv nqueues s
  pending : PendingInv s

theorem progressInv_initial (nqueues : Nat) : ProgressInv nqueues {} where
  place :=
    { bounded := Nat.zero_le _
      unborn := fun _ => .inr rfl
      born := nofun
      efd := fun _ => rfl
      launched := nofun }
  pending :=
    { idle := fun _ => rfl
      more := fun is => absurd rfl is
      sent := nofun
      taken := nofun }

section Steps

variable {s s' : Session} {nqueues : Nat} {ok : Bool}

theorem pendingInv_none (idle : s.outstanding = none) : PendingInv s where
  idle _ := idle
  more is := absurd idle is
  sent t is := by rw [idle] at is; cases is
  taken q is := by rw [idle] at is; cases is

/-- A step that leaves the handshake alone. -/
theorem PendingInv.keeps (inv : PendingInv s)
    (mounter : s'.mounter = .unborn → s.mounter = .unborn) (workers : s'.workers = s.workers)
    (outstanding : s'.outstanding = s.outstanding) (answered : s'.answered = s.answered) :
    PendingInv s' where
  idle is := outstanding.trans (inv.idle (mounter is))
  more := by rw [outstanding, answered]; exact inv.more
  sent := by rw [outstanding, workers]; exact inv.sent
  taken := by rw [outstanding, workers]; exact inv.taken

/-- `run()` touches the workers only while nobody has sent anything. -/
theorem PlaceInv.idle (inv : PlaceInv nqueues s) (pending : PendingInv s)
    (early : s.main.early = true) (before : s.main ≠ .joinMounter) : s.outstanding = none :=
  pending.idle ((inv.unborn early).resolve_left before)

theorem PendingInv.main (inv : PendingInv s) (place : PlaceInv nqueues s)
    (step : s.MainStep nqueues s') : PendingInv s' := by
  cases step with
  | starts here => exact pendingInv_none (place.idle inv (here ▸ rfl) (by rw [here]; nofun))
  | launches q here =>
    exact pendingInv_none (place.idle inv (here ▸ rfl) (by rw [here]; nofun))
  | spawns => exact inv.keeps nofun rfl rfl rfl
  | jumps | givesUp | acquires | makesEfd | stores | writes | joins | returns | destroys
  | tearsDown | closes | umounts => exact inv.keeps id rfl rfl rfl

theorem PendingInv.mounter (inv : PendingInv s) (step : s.MounterStep ok s') :
    PendingInv s' := by
  cases step <;> exact inv.keeps nofun rfl rfl rfl

/-- Another worker than the one that owes a reply moves, or that one stays in debt. -/
theorem owes_set {workers : List Worker} {q i : Nat} {w v : Worker}
    (found : workers[q]? = some w) (owes : ∃ u, workers[i]? = some u ∧ u.pc.Owes)
    (still : w.pc.Owes → v.pc.Owes) :
    ∃ u, (workers.set q v)[i]? = some u ∧ u.pc.Owes := by
  obtain ⟨u, present, debt⟩ := owes
  by_cases same : q = i
  · subst same
    obtain rfl : w = u := Option.some.inj (found.symm.trans present)
    have bound := (List.getElem?_eq_some_iff.mp found).1
    exact ⟨v, by simp [bound], still debt⟩
  · exact ⟨u, by rw [List.getElem?_set_ne same, present], debt⟩

theorem PendingInv.round {a : SessionAction} (inv : PendingInv s) (round : s.Round a s') :
    PendingInv s' := by
  cases round with
  | sends q creating idle more present =>
    refine ⟨fun is => ?_, fun _ => more, ?_, nofun⟩
    · rw [show s.mounter = .unborn from is] at creating
      cases creating
    · rintro t is
      cases is
      exact present
  | delivers q w ec pending found waits =>
    have bound := (List.getElem?_eq_some_iff.mp found).1
    refine ⟨fun is => ?_, fun _ => inv.more (by rw [pending]; nofun), ?_, ?_⟩
    · rw [inv.idle is] at pending
      cases pending
    · rintro t is
      cases is
      simpa using bound
    · rintro i is
      cases is
      exact ⟨⟨.handling, ec⟩, by simp [bound], .inl rfl⟩
  | handles q outcome w ec initDone log found handling =>
    exact ⟨inv.idle, inv.more, by simpa using inv.sent,
      fun i is => owes_set found (inv.taken i is) fun _ => .inr (.inl rfl)⟩
  | answers q w ec pending found commits => exact pendingInv_none rfl
  | commits q w ec other found commits =>
    refine ⟨inv.idle, inv.more, by simpa using inv.sent, fun i is => ?_⟩
    obtain ⟨u, present, debt⟩ := inv.taken i is
    have apart : q ≠ i := by
      rintro rfl
      exact other is
    exact ⟨u, (List.getElem?_set_ne apart).trans present, debt⟩
  | moves a q w ec target found alive here paid =>
    refine ⟨inv.idle, inv.more, by simpa using inv.sent,
      fun i is => owes_set found (inv.taken i is) fun debt => ?_⟩
    rcases here with waits | ⟨-, rfl⟩
    · rw [waits] at debt
      rcases debt with is | is | is <;> cases is
    · exact .inr (.inr rfl)
  | disconnects => exact ⟨inv.idle, inv.more, inv.sent, inv.taken⟩

/-! ### The place of run() -/

theorem MainPc.Launched.early {pc : MainPc} {q : Nat} (launched : pc.Launched q) :
    pc.early = true := by
  cases pc <;> first | rfl | cases launched

/-- Nothing but the number of workers is claimed of a `run()` past the mounter. -/
theorem placeInv_late (bounded : s.workers.length ≤ nqueues) (late : s.main.early = false) :
    PlaceInv nqueues s where
  bounded := bounded
  unborn early := by rw [late] at early; cases early
  born is := by rw [is] at late; cases late
  efd is := by rcases is with is | is <;> · rw [is] at late; cases late
  launched q w is := by rw [is.early] at late; cases late

/-- A step on the way to the mounter. -/
theorem PlaceInv.advance (inv : PlaceInv nqueues s) (early : s.main.early = true)
    (before : s.main ≠ .joinMounter) (mounter : s'.mounter = s.mounter)
    (bounded : s'.workers.length ≤ nqueues) (further : s'.main ≠ .joinMounter)
    (efd : s'.main = .acquireDev ∨ s'.main = .makeEfd → s'.stopEfd = none)
    (launched : ∀ (q : Nat) (w : Worker), s'.main.Launched q → s'.workers[q]? = some w →
      w.pc ≠ .started) : PlaceInv nqueues s' where
  bounded := bounded
  unborn _ := .inr (mounter.trans ((inv.unborn early).resolve_left before))
  born is := absurd is further
  efd := efd
  launched := launched

theorem PlaceInv.jumps {pc : MainPc} (inv : PlaceInv nqueues s) (jump : s.Jump nqueues pc)
    (elsewhere : ∀ q, s.main ≠ .launch q) : PlaceInv nqueues (s.setMain pc) := by
  cases jump with
  | opened here =>
    exact inv.advance (here ▸ rfl) (by rw [here]; nofun) rfl inv.bounded nofun
      (by rintro (is | is) <;> cases is) nofun
  | staffed here =>
    exact inv.advance (here ▸ rfl) (by rw [here]; nofun) rfl inv.bounded nofun
      (by rintro (is | is) <;> cases is) fun q _ is => absurd is (Nat.not_lt_zero q)
  | allLaunched q here => exact absurd here (elsewhere q)
  | startFailed | mounterJoined | mountFailed | mountDone | stopSeen | goesOn | initSeen
  | initMissing | efdFound | efdMissing | skipped | allJoined | allDown | notInstalled =>
    exact placeInv_late inv.bounded rfl

/-- The loop that launches the workers, which ends with all of them launched. -/
theorem PlaceInv.launch {q : Nat} (inv : PlaceInv nqueues s) (here : s.main = .launch q)
    (taken : s.mainNext nqueues ok = some s') : PlaceInv nqueues s' := by
  simp only [Session.mainNext, here] at taken
  split at taken
  next more =>
    cases taken
    refine inv.advance (here ▸ rfl) (by simp [here]) rfl (by simpa using inv.bounded) (by simp)
      (by simp) ?_
    intro i w before found
    rw [List.getElem?_modify] at found
    by_cases same : q = i
    · obtain ⟨v, -, rfl⟩ := Option.map_eq_some_iff.mp (by simpa [same] using found)
      simp
    · have earlier : i < q := by
        have bound : i < q + 1 := before
        omega
      refine inv.launched i w ?_ (by simpa [same] using found)
      rw [here]
      exact earlier
  next all =>
    cases taken
    refine inv.advance (here ▸ rfl) (by simp [here]) rfl inv.bounded (by simp [Session.setMain])
      (by simp [Session.setMain]) ?_
    intro i w _ found
    have bound := (List.getElem?_eq_some_iff.mp found).1
    refine inv.launched i w ?_ found
    rw [here]
    exact Nat.lt_of_lt_of_le bound (Nat.le_of_not_lt all)

theorem PlaceInv.main (inv : PlaceInv nqueues s) (taken : s.mainNext nqueues ok = some s') :
    PlaceInv nqueues s' := by
  by_cases launching : ∃ q, s.main = .launch q
  · obtain ⟨q, here⟩ := launching
    exact inv.launch here taken
  have elsewhere : ∀ q, s.main ≠ .launch q := not_exists.mp launching
  cases Session.mainNext_step taken with
  | jumps pc jump => exact inv.jumps jump elsewhere
  | acquires here =>
    exact inv.advance (here ▸ rfl) (by rw [here]; nofun) rfl inv.bounded nofun
      (fun _ => inv.efd (.inl here)) nofun
  | makesEfd here =>
    exact inv.advance (here ▸ rfl) (by rw [here]; nofun) rfl inv.bounded nofun
      (by rintro (is | is) <;> cases is) nofun
  | starts here more =>
    refine inv.advance (here ▸ rfl) (by rw [here]; nofun) rfl ?_ (by simp [here]) (by simp [here])
      ?_
    · rw [List.length_append]
      exact more
    · simp [here, MainPc.Launched]
  | launches q here => exact absurd here (elsewhere q)
  | spawns here =>
    refine ⟨inv.bounded, fun _ => .inl rfl, nofun, ?_, ?_⟩
    · rintro (is | is) <;> cases is
    intro q w _ found
    refine inv.launched q w ?_ found
    rw [here]
    trivial
  | givesUp | stores | writes | joins | returns | destroys | tearsDown | closes | umounts =>
    exact placeInv_late inv.bounded rfl

/-- A step that leaves `run()` where it is. -/
theorem PlaceInv.keeps (inv : PlaceInv nqueues s) (main : s'.main = s.main)
    (mounter : s'.mounter = .unborn ↔ s.mounter = .unborn)
    (efd : s.stopEfd = none → s'.stopEfd = none)
    (count : s'.workers.length = s.workers.length)
    (launched : ∀ (q : Nat) (w : Worker), s'.workers[q]? = some w → w.pc = .started →
      s.workers[q]? = some w) : PlaceInv nqueues s' where
  bounded := count ▸ inv.bounded
  unborn := by rw [main, mounter]; exact inv.unborn
  born is := mt mounter.mp (inv.born (main ▸ is))
  efd is := efd (inv.efd (main ▸ is))
  launched q w is found started :=
    inv.launched q w (main ▸ is) (launched q w found started) started

theorem PlaceInv.mounter (inv : PlaceInv nqueues s) (step : s.MounterStep ok s') :
    PlaceInv nqueues s' := by
  have born : s.mounter ≠ .unborn := by
    intro is
    have active := step.active
    rw [is] at active
    cases active
  cases step <;>
    exact inv.keeps rfl ⟨nofun, fun is => absurd is born⟩ id rfl fun _ _ found _ => found

/-- No worker goes back to where it has no thread. -/
theorem started_of_set {workers : List Worker} {q i : Nat} {v w : Worker}
    (found : (workers.set q v)[i]? = some w) (alive : v.pc ≠ .started)
    (started : w.pc = .started) : workers[i]? = some w := by
  by_cases same : q = i
  · subst same
    have bound := (List.getElem?_eq_some_iff.mp found).1
    rw [List.length_set] at bound
    obtain rfl : v = w := by simpa [bound] using found
    exact absurd started alive
  · rwa [List.getElem?_set_ne same] at found

theorem PlaceInv.round {a : SessionAction} (inv : PlaceInv nqueues s) (round : s.Round a s') :
    PlaceInv nqueues s' := by
  cases round with
  | sends | disconnects => exact inv.keeps rfl .rfl id rfl fun _ _ found _ => found
  | delivers | handles | answers | commits =>
    exact inv.keeps rfl .rfl id (List.length_set ..) fun _ _ found => started_of_set found nofun
  | moves a q w ec target found alive =>
    exact inv.keeps rfl .rfl id (List.length_set ..) fun _ _ found => started_of_set found alive

theorem PlaceInv.call {a : SessionAction} (inv : PlaceInv nqueues s) (call : s.Call a s') :
    PlaceInv nqueues s' := by
  cases call with
  | stores | finds | misses => exact inv.keeps rfl .rfl id rfl fun _ _ found _ => found
  | writes => exact inv.keeps rfl .rfl (fun none => by simp [none]) rfl fun _ _ found _ => found

theorem ProgressInv.step {a : SessionAction} (inv : ProgressInv nqueues s)
    (taken : s.next nqueues a = some s') : ProgressInv nqueues s' := by
  have ⟨place, pending⟩ := inv
  cases Session.next_turn taken with
  | main ok taken => exact ⟨place.main taken, pending.main place (Session.mainNext_step taken)⟩
  | mounter ok step => exact ⟨place.mounter step, pending.mounter step⟩
  | call call => exact ⟨place.call call, by cases call <;> exact pending.keeps id rfl rfl rfl⟩
  | round round => exact ⟨place.round round, pending.round round⟩

theorem progressInv_of_reachable {allowed : Session → SessionAction → Prop}
    (reachable : (sessionMachine nqueues).ReachableBy allowed s) : ProgressInv nqueues s := by
  refine reachable.invariant (ProgressInv nqueues) ?_ fun _ _ _ _ inv taken => inv.step taken
  rintro s rfl
  exact progressInv_initial nqueues

/-! ### Every obliged action is paid for -/

theorem distance_setMain (s : Session) (nqueues : Nat) (pc : MainPc) :
    (s.setMain pc).distance nqueues + s.main.distance nqueues s.workers.length =
      s.distance nqueues + pc.distance nqueues s.workers.length := by
  simp only [Session.distance, Session.setMain]
  omega

theorem Session.Jump.nearer {pc : MainPc} (jump : s.Jump nqueues pc)
    (bounded : s.workers.length ≤ nqueues) (elsewhere : ∀ q, s.main ≠ .launch q) :
    pc.distance nqueues s.workers.length + 1 ≤ s.main.distance nqueues s.workers.length := by
  cases jump with
  | allLaunched q here => exact absurd here (elsewhere q)
  | skipped why q w here found =>
    have bound := (List.getElem?_eq_some_iff.mp found).1
    simp only [here, MainPc.distance]
    omega
  | opened here | startFailed here | staffed here | mounterJoined here | mountFailed here
  | mountDone here | stopSeen here | goesOn here | initSeen here | initMissing here
  | efdFound _ here | efdMissing _ here | allJoined _ here | allDown _ here
  | notInstalled here =>
    simp only [here, MainPc.distance]
    omega

theorem distance_launch {q : Nat} (here : s.main = .launch q)
    (taken : s.mainNext nqueues ok = some s') :
    s'.distance nqueues + 1 ≤ s.distance nqueues := by
  simp only [Session.mainNext, here] at taken
  split at taken
  next more =>
    cases taken
    have launched := workDistance_launch s.workers q
    simp only [Session.distance, here, MainPc.distance, List.length_modify]
    omega
  next all =>
    cases taken
    simp only [Session.distance, Session.setMain, here, MainPc.distance]
    omega

theorem distance_main (place : PlaceInv nqueues s) (taken : s.mainNext nqueues ok = some s') :
    s'.distance nqueues + 1 ≤ s.distance nqueues := by
  have bounded := place.bounded
  by_cases launching : ∃ q, s.main = .launch q
  · obtain ⟨q, here⟩ := launching
    exact distance_launch here taken
  have elsewhere : ∀ q, s.main ≠ .launch q := not_exists.mp launching
  cases Session.mainNext_step taken with
  | jumps pc jump =>
    have moved := distance_setMain s nqueues pc
    have nearer := jump.nearer bounded elsewhere
    omega
  | launches q here => exact absurd here (elsewhere q)
  | givesUp why here =>
    rcases here with here | here | here <;>
      · simp only [Session.distance, Session.leave, here, MainPc.distance]
        omega
  | starts here more =>
    simp only [Session.distance, here, MainPc.distance, workDistance_append, List.length_append,
      List.length_singleton]
    omega
  | joins why q w out here found =>
    have bound := (List.getElem?_eq_some_iff.mp found).1
    simp only [Session.distance, here, MainPc.distance]
    omega
  | spawns here =>
    have unborn : s.mounter = .unborn :=
      (place.unborn (here ▸ rfl)).resolve_left (by rw [here]; nofun)
    simp only [Session.distance, here, unborn, MainPc.distance, MounterPc.distance]
    omega
  | acquires here | makesEfd here | stores _ here | writes _ here | returns _ _ _ here
  | destroys here | tearsDown _ here | closes here | umounts here =>
    simp only [Session.distance, Session.leave, here, MainPc.distance]
    omega

theorem distance_mounter (step : s.MounterStep ok s') :
    s'.distance nqueues + 1 ≤ s.distance nqueues := by
  cases step with
  | fails here =>
    rcases here with here | here | here <;>
      · simp only [Session.distance, Session.mountFails, here, MounterPc.distance]
        omega
  | created here | mounts here | moves here | finishes here =>
    simp only [Session.distance, here, MounterPc.distance]
    omega

theorem distance_call {a : SessionAction} (call : s.Call a s') :
    s'.distance nqueues + 1 ≤ s.distance nqueues + if a.obliged then 0 else 3 := by
  cases call <;>
    · simp only [Session.distance, SessionAction.obliged, if_true, Bool.false_eq_true, if_false]
      omega

theorem distance_round {a : SessionAction} (pending : PendingInv s) (round : s.Round a s') :
    s'.distance nqueues + 1 ≤ s.distance nqueues + if a.obliged then 0 else 3 := by
  cases round with
  | sends q creating idle more present =>
    simp only [Session.distance, idle, handshakeDistance, SessionAction.obliged, if_true]
    omega
  | delivers q w ec sent found waits =>
    have more := pending.more (by rw [sent]; nofun)
    have moved := workDistance_set found ⟨.handling, ec⟩
    simp only [waits, WorkerPc.distance] at moved
    simp only [Session.distance, sent, handshakeDistance, SessionAction.obliged, if_true,
      List.length_set]
    omega
  | handles q outcome w ec initDone log found handling =>
    have moved := workDistance_set found ⟨.committing, ec⟩
    simp only [handling, WorkerPc.distance] at moved
    simp only [Session.distance, SessionAction.obliged, if_true, List.length_set]
    omega
  | answers q w ec sent found commits =>
    have more := pending.more (by rw [sent]; nofun)
    have moved := workDistance_set found ⟨.waiting, ec⟩
    simp only [commits, WorkerPc.distance] at moved
    simp only [Session.distance, sent, handshakeDistance, SessionAction.obliged, if_true,
      List.length_set]
    omega
  | commits q w ec other found commits =>
    have moved := workDistance_set found ⟨.waiting, ec⟩
    simp only [commits, WorkerPc.distance] at moved
    simp only [Session.distance, SessionAction.obliged, if_true, List.length_set]
    omega
  | moves a q w ec target found alive here paid =>
    have moved := workDistance_set found ⟨target, ec⟩
    dsimp only at moved
    simp only [Session.distance, List.length_set]
    omega
  | disconnects =>
    simp only [Session.distance, SessionAction.obliged, Bool.false_eq_true, if_false]
    omega

theorem distance_step {a : SessionAction} (inv : ProgressInv nqueues s)
    (taken : s.next nqueues a = some s') :
    s'.distance nqueues + 1 ≤ s.distance nqueues + if a.obliged then 0 else 3 := by
  cases Session.next_turn taken with
  | main ok taken => exact distance_main inv.place taken
  | mounter ok step => exact distance_mounter step
  | call call => exact distance_call call
  | round round => exact distance_round inv.pending round

end Steps

/-! ### Where nothing goes on -/

section Blocked

variable {s : Session} {nqueues : Nat}

/-- The places at which `run()` waits. -/
theorem main_waits (waits : s.mainNext nqueues true = none) :
    s.main = .returned ∨ (s.main = .joinMounter ∧ s.mounter ≠ .exited) ∨
      ∃ why q w, s.main = .joinWorkers why q ∧ s.workers[q]? = some w ∧ w.pc.Running := by
  unfold Session.mainNext at waits
  cases here : s.main with
  | returned => exact .inl rfl
  | joinMounter =>
    rw [here] at waits
    refine .inr (.inl ⟨rfl, fun ended => ?_⟩)
    simp [ended] at waits
  | joinWorkers why q =>
    simp only [here, Session.join] at waits
    cases found : s.workers[q]? with
    | none => simp [found] at waits
    | some w =>
      refine .inr (.inr ⟨why, q, w, rfl, found, ?_⟩)
      cases pc : w.pc with
      | started | left => simp [found, pc] at waits
      | waiting => exact .inl rfl
      | handling => exact .inr (.inl rfl)
      | committing => exact .inr (.inr rfl)
  | startWorkers | launch | guardClose | teardown =>
    simp only [here] at waits
    split at waits <;> cases waits
  | acquireDev | makeEfd | mountOpen | spawnMounter | checkMount | checkStopping | checkInit
  | stopStore | stopCheck | stopWrite | destroy | guardUmount => simp [here] at waits

/-- A worker can make a move from where it is. -/
theorem move_ne_none {q : Nat} {w : Worker} (found : s.workers[q]? = some w) (target : WorkerPc)
    (fails : Bool) : s.move q w.pc target fails ≠ none := by
  simp [Session.move, found]

theorem Session.Blocked.not_handling (blocked : s.Blocked nqueues) {q : Nat} {w : Worker}
    (found : s.workers[q]? = some w) : w.pc ≠ .handling := by
  intro is
  have stuck := blocked (.handle q .refused) rfl
  simp only [Session.next, Option.map_eq_none_iff] at stuck
  exact move_ne_none found .committing false (is ▸ stuck)

theorem Session.Blocked.not_committing (blocked : s.Blocked nqueues) {q : Nat} {w : Worker}
    (found : s.workers[q]? = some w) : w.pc ≠ .committing := by
  intro is
  have stuck := blocked (.commit q) rfl
  simp only [Session.next, Option.map_eq_none_iff] at stuck
  exact move_ne_none found .waiting false (is ▸ stuck)

/-- A worker that waits would notice the eventfd and the end of the connection. -/
theorem Session.Blocked.unstopped (blocked : s.Blocked nqueues) {q : Nat} {w : Worker}
    (found : s.workers[q]? = some w) (waits : w.pc = .waiting) :
    ¬s.Written ∧ s.connected = true := by
  constructor
  · intro written
    have stuck := blocked (.exit q .stopped) rfl
    simp only [Session.next, Session.exitNext, if_pos written] at stuck
    exact move_ne_none found (.left .stopped) false (waits ▸ stuck)
  · by_contra closed
    have stuck := blocked (.exit q .gone) rfl
    simp only [Session.next, Session.exitNext, if_neg closed] at stuck
    exact move_ne_none found (.left .gone) false (waits ▸ stuck)

/-- A mounter that cannot go on waits inside `CMD_CREATE` for a reply. -/
theorem Session.Blocked.creating (blocked : s.Blocked nqueues) (born : s.mounter ≠ .unborn)
    (runs : s.mounter ≠ .exited) :
    s.mounter = .create ∧ s.connected = true ∧ ∃ t, s.outstanding = some t := by
  have stuck := blocked (.mounter false) rfl
  simp only [Session.next] at stuck
  unfold Session.mounterNext at stuck
  cases here : s.mounter with
  | unborn => exact absurd here born
  | exited => exact absurd here runs
  | fsmount | moveMount | finish => simp [here] at stuck
  | create =>
    simp only [here, Bool.false_eq_true, if_false, ite_eq_right_iff, reduceCtorEq, imp_false,
      not_or, Bool.not_eq_false] at stuck
    exact ⟨rfl, stuck.2, Option.ne_none_iff_exists'.mp stuck.1⟩

/-- The worker that was to answer has left. -/
theorem Session.Blocked.unanswered (blocked : s.Blocked nqueues) (inv : ProgressInv nqueues s)
    (here : s.main = .joinMounter) {t : Sent} (sent : s.outstanding = some t) :
    ∃ w why, s.workers[t.queue]? = some w ∧ w.pc = .left why := by
  obtain ⟨w, found⟩ : ∃ w, s.workers[t.queue]? = some w :=
    ⟨_, List.getElem?_eq_getElem (inv.pending.sent t sent)⟩
  cases pc : w.pc with
  | left why => exact ⟨w, why, found, pc⟩
  | started => exact absurd pc (inv.place.launched _ w (here ▸ trivial) found)
  | handling => exact absurd pc (blocked.not_handling found)
  | committing => exact absurd pc (blocked.not_committing found)
  | waiting =>
    obtain ⟨q, taken⟩ := t
    cases taken with
    | true =>
      -- It took the request, so it would not be waiting.
      obtain ⟨v, present, owes⟩ := inv.pending.taken q sent
      obtain rfl : w = v := Option.some.inj (found.symm.trans present)
      rw [pc] at owes
      rcases owes with is | is | is <;> cases is
    | false =>
      have stuck := blocked (.deliver q) rfl
      simp only [Session.next, if_pos sent, Option.map_eq_none_iff] at stuck
      exact absurd (pc ▸ stuck) (move_ne_none found .handling false)

/-- When nothing that is bound to happen can happen, `run()` has returned, the mounter waits for
a worker that has left, or the session serves requests. -/
theorem blocked_cases (inv : ProgressInv nqueues s) (blocked : s.Blocked nqueues) :
    s.main = .returned ∨ s.Unserved ∨ s.Serving := by
  rcases main_waits (blocked (.main true) rfl) with ended | ⟨here, runs⟩ | waits
  · exact .inl ended
  · obtain ⟨creating, connected, t, sent⟩ := blocked.creating (inv.place.born here) runs
    obtain ⟨w, why, found, left⟩ := blocked.unanswered inv here sent
    exact .inr (.inl ⟨here, creating, connected, t, w, why, sent, found, left⟩)
  · obtain ⟨why, q, w, here, found, running⟩ := waits
    -- A worker that handles or commits would go on.
    have waiting : w.pc = .waiting := by
      rcases running with is | is | is
      · exact is
      · exact absurd is (blocked.not_handling found)
      · exact absurd is (blocked.not_committing found)
    obtain ⟨unwritten, connected⟩ := blocked.unstopped found waiting
    exact .inr (.inr ⟨⟨why, q, w, here, found, waiting⟩, unwritten, connected⟩)

end Blocked

/-! ### The main results -/

section Results

variable {s s' : Session} {nqueues : Nat}

theorem session_blocked (reachable : (sessionMachine nqueues).Reachable s)
    (blocked : s.Blocked nqueues) : s.main = .returned ∨ s.Unserved ∨ s.Serving :=
  blocked_cases (progressInv_of_reachable reachable) blocked

/-- A session that serves requests, with one worker. -/
def servingSession : Session :=
  { main := .joinWorkers .drained 0
    mounter := .exited
    devOpen := true
    stopEfd := some 0
    mountInstalled := true
    workers := [{ pc := .waiting }]
    initDone := true
    answered := 3
    log := [.initSucceeded, .moved] }

/-- How it comes to serve. -/
def serveActions : List SessionAction :=
  bootActions ++ mountActions ++ List.replicate 4 (.main true)

theorem servingSession_reachable : (sessionMachine 1).Reachable servingSession :=
  ReachableBy.exec (.start rfl) serveActions (fun _ _ _ => trivial) rfl

theorem servingSession_blocked : servingSession.Blocked 1 := by
  intro a obliged
  -- The one worker waits, so no other move of a worker is possible.
  have stays (q : Nat) (source target : WorkerPc) (fails : Bool) (other : source ≠ .waiting) :
      servingSession.move q source target fails = none := by
    rcases q with _ | q
    · simp [Session.move, servingSession, other.symm]
    · simp [Session.move, servingSession]
  cases a with
  | main ok => rfl
  | mounter ok => rfl
  | send q | deliver q => simp [Session.next, servingSession]
  | handle q outcome => simp [Session.next, stays]
  | commit q => simp [Session.next, stays]
  | exit q why =>
    cases why with
    | stopped =>
      have unwritten : ¬servingSession.Written := by decide
      simp [Session.next, Session.exitNext, unwritten]
    | gone => rfl
    | failed => cases obliged
  | stopCheck | stopWrite => rfl
  | take | rearm | badIndex | stopStore | disconnect => cases obliged

theorem session_blocked_serving : servingSession.Blocked 1 ∧
    (servingSession.main = .returned ∨ servingSession.Unserved ∨ servingSession.Serving) :=
  ⟨servingSession_blocked, session_blocked servingSession_reachable servingSession_blocked⟩

/-- Nobody resets the eventfd, and `run()` makes only one. -/
theorem written_step {a : SessionAction} (place : PlaceInv nqueues s) (written : s.Written)
    (taken : s.next nqueues a = some s') : s'.Written := by
  obtain ⟨count, efd⟩ := written
  cases Session.next_turn taken with
  | main ok taken =>
    cases Session.mainNext_step taken with
    | makesEfd here =>
      rw [place.efd (.inr here)] at efd
      cases efd
    | writes => exact ⟨count + 1, by simp [efd]⟩
    | jumps | givesUp | acquires | starts | launches | spawns | stores | joins | returns
    | destroys | tearsDown | closes | umounts => exact ⟨count, efd⟩
  | mounter ok step => cases step <;> exact ⟨count, efd⟩
  | call call =>
    cases call with
    | writes => exact ⟨count + 1, by simp [efd]⟩
    | stores | finds | misses => exact ⟨count, efd⟩
  | round round => cases round <;> exact ⟨count, efd⟩

/-- A connection that is closed stays closed. -/
theorem closed_step {a : SessionAction} (closed : s.connected = false)
    (taken : s.next nqueues a = some s') : s'.connected = false := by
  cases Session.next_turn taken with
  | main ok taken =>
    cases Session.mainNext_step taken <;> first | exact closed | rfl
  | mounter ok step => cases step <;> exact closed
  | call call => cases call <;> exact closed
  | round round => cases round <;> first | exact closed | rfl

/-- Once the eventfd is written or the connection closed, every run is bounded by the distance,
and where it stops `run()` has returned, or the mounter waits for a worker that has left; the
latter only over an open connection. -/
theorem session_shutdown (reachable : (sessionMachine nqueues).Reachable s)
    (asked : s.Written ∨ s.connected = false) (actions : List SessionAction)
    (ends : (sessionMachine nqueues).exec s actions = some s') :
    actions.length ≤
        s.distance nqueues + 3 * actions.countP (fun a => !a.obliged) ∧
      (s'.Blocked nqueues → s'.main = .returned ∨ s.connected = true ∧ s'.Unserved) := by
  have inv := progressInv_of_reachable reachable
  constructor
  · have bound := exec_length_le (ProgressInv nqueues) (Session.distance nqueues)
      SessionAction.obliged 3
      (fun v a v' inv taken => ⟨ProgressInv.step inv taken, distance_step inv taken⟩)
      inv actions ends
    omega
  · intro blocked
    have later : ProgressInv nqueues s' ∧ (s'.Written ∨ s'.connected = false) := by
      refine exec_invariant (fun v => ProgressInv nqueues v ∧ (v.Written ∨ v.connected = false))
        ?_ ⟨inv, asked⟩ actions ends
      rintro v a v' ⟨inv, asked⟩ taken
      exact ⟨inv.step taken, asked.imp (fun written => written_step inv.place written taken)
        fun closed => closed_step closed taken⟩
    rcases blocked_cases later.1 blocked with ended | unserved | serving
    · exact .inl ended
    · refine .inr ⟨?_, unserved⟩
      by_contra closed
      have still := exec_invariant (fun v => v.connected = false)
        (fun v a v' closed taken => closed_step closed taken) (by simpa using closed) actions ends
      rw [unserved.connected] at still
      cases still
    · -- A worker that waits would have noticed.
      rcases later.2 with written | closed
      · exact absurd written serving.unwritten
      · rw [serving.connected] at closed
        cases closed

/-- The same session after a call of `stop()`. -/
def stopAsked : Session := { servingSession with stopping := true, stopEfd := some 1 }

/-- The worker leaves, and `run()` returns. -/
def returnActions : List SessionAction := .exit 0 .stopped :: List.replicate 7 (.main true)

theorem session_shutdown_serving :
    ∃ s', (sessionMachine 1).exec stopAsked returnActions = some s' ∧
      s'.main = .returned ∧
      returnActions.length ≤ stopAsked.distance 1 +
        3 * returnActions.countP (fun a => !a.obliged) ∧
      (s'.Blocked 1 →
        s'.main = .returned ∨ stopAsked.connected = true ∧ s'.Unserved) := by
  have reachable : (sessionMachine 1).Reachable stopAsked :=
    ReachableBy.exec servingSession_reachable [.stopStore, .stopCheck, .stopWrite]
      (fun _ _ _ => trivial) rfl
  exact ⟨_, rfl, rfl, session_shutdown reachable (.inl ⟨0, rfl⟩) returnActions rfl⟩

end Results

end Fex
