import Fex.Passthrough.Launch
import Fex.Properties.Shutdown
import Fex.Properties.Unwinding

/-!
# What the parent of the daemon reports

## Main results

- `launch_truthful`: the parent exits with 0 only if the mount was installed, and with 1 only if
  `run()` has returned or the watchdog has made all its rounds without finding the mount. The
  child exits behind its watchdog, with the result of `run()`.
- `launch_ends`: every run of the two processes is bounded but for what the session is asked to
  do; and when nothing can go on, the parent has exited or the watchdog waits for the file system,
  and the child has exited, or its session serves requests or waits for a worker that has left.

## Proof strategy

`Launch.Step` says what an action does. The watchdog writes at most one byte and closes the last
write end, so the parent learns from the pipe how the watchdog ended (`PipeInv`); the watchdog
ends in one of three ways (`OrderInv`). Where nothing can go on, the session is blocked by itself,
and `blocked_cases` knows how.
-/
namespace Fex

open Foundation Machine

namespace Passthrough

namespace Launch

/-- The actions by what they do. -/
inductive Step (nqueues : Nat) (s : Launch) : LaunchAction → Launch → Prop where
  | closesWrite (here : s.parent = .closeWrite) :
      Step nqueues s .parent { s with parentWrite := false, parent := .read }
  | reads (here : s.parent = .read) (byte : 0 < s.pipe) :
      Step nqueues s .parent { s with pipe := s.pipe - 1, parent := .exited 0 }
  | ends (here : s.parent = .read) (empty : s.pipe = 0) (none : s.childWrite = false) :
      Step nqueues s .parent { s with parent := .exited 1 }
  | closesRead (here : s.child = .closeRead) : Step nqueues s .child { s with child := .spawn }
  | spawns (here : s.child = .spawn) :
      Step nqueues s .child { s with watchdog := .check 0, child := .run }
  | returns (here : s.child = .run) (returned : s.session.main = .returned) :
      Step nqueues s .child { s with child := .store }
  | stores (here : s.child = .store) :
      Step nqueues s .child { s with done := true, child := .join }
  | joins (here : s.child = .join) (why : Verdict) (left : s.watchdog = .exited why) :
      Step nqueues s .child
        { s with child := .exited (if s.session.result.isSome then 1 else 0) }
  | tooLate (found : Bool) (i : Nat) (here : s.watchdog = .check i) (spent : maxIters ≤ i) :
      Step nqueues s (.watchdog found) { s with watchdog := .close .late }
  | hears (found : Bool) (i : Nat) (here : s.watchdog = .check i) (done : s.done = true) :
      Step nqueues s (.watchdog found) { s with watchdog := .close .ended }
  | looks (found : Bool) (i : Nat) (here : s.watchdog = .check i) (within : i < maxIters) :
      Step nqueues s (.watchdog found) { s with watchdog := .stat i }
  | finds (i : Nat) (here : s.watchdog = .stat i) (installed : s.session.mountInstalled = true) :
      Step nqueues s (.watchdog true) { s with watchdog := .write }
  | misses (i : Nat) (here : s.watchdog = .stat i) :
      Step nqueues s (.watchdog false) { s with watchdog := .check (i + 1) }
  | writes (found : Bool) (here : s.watchdog = .write) :
      Step nqueues s (.watchdog found)
        { s with
          pipe := if s.readable then s.pipe + 1 else s.pipe
          watchdog := .close .ready }
  | closes (found : Bool) (why : Verdict) (here : s.watchdog = .close why) :
      Step nqueues s (.watchdog found)
        { s with childWrite := false, watchdog := .exited why }
  | session (a : SessionAction) (after : Session) (permitted : s.permits a = true)
      (taken : s.session.next nqueues a = some after) :
      Step nqueues s (.session a) { s with session := after }

variable {nqueues : Nat} {s s' : Launch} {a : LaunchAction}

theorem parentNext_step (taken : s.parentNext = some s') : Step nqueues s .parent s' := by
  unfold parentNext at taken
  split at taken
  next here =>
    cases taken
    exact .closesWrite here
  next here =>
    split at taken
    next byte =>
      cases taken
      exact .reads here byte
    next empty =>
      obtain ⟨open_, is⟩ := Option.ite_none_left_eq_some.mp taken
      cases is
      have none : s.childWrite = false := by
        cases is : s.childWrite <;> simp_all
      exact .ends here (Nat.eq_zero_of_not_pos empty) none
  · cases taken

theorem childNext_step (taken : s.childNext = some s') : Step nqueues s .child s' := by
  unfold childNext at taken
  split at taken
  next here =>
    cases taken
    exact .closesRead here
  next here =>
    cases taken
    exact .spawns here
  next here =>
    obtain ⟨returned, is⟩ := Option.ite_none_right_eq_some.mp taken
    cases is
    exact .returns here returned
  next here =>
    cases taken
    exact .stores here
  next here =>
    split at taken
    next why left =>
      cases taken
      exact .joins here why left
    · cases taken
  · cases taken

theorem watchdogNext_step {found : Bool} (taken : s.watchdogNext found = some s') :
    Step nqueues s (.watchdog found) s' := by
  unfold watchdogNext at taken
  split at taken
  · cases taken
  · cases taken
  next i here =>
    split at taken
    next spent =>
      cases taken
      exact .tooLate found i here spent
    next within =>
      split at taken
      next done =>
        cases taken
        exact .hears found i here done
      · cases taken
        exact .looks found i here (Nat.lt_of_not_le within)
  next i here =>
    cases found with
    | true =>
      obtain ⟨installed, is⟩ := Option.ite_none_right_eq_some.mp taken
      cases is
      exact .finds i here installed
    | false =>
      cases taken
      exact .misses i here
  next here =>
    cases taken
    exact .writes found here
  next why here =>
    cases taken
    exact .closes found why here

theorem next_step (taken : s.next nqueues a = some s') : Step nqueues s a s' := by
  cases a with
  | parent => exact parentNext_step taken
  | child => exact childNext_step taken
  | watchdog found => exact watchdogNext_step taken
  | session b =>
    obtain ⟨permitted, taken⟩ := Option.ite_none_right_eq_some.mp taken
    obtain ⟨after, moves, rfl⟩ := Option.map_eq_some_iff.mp taken
    exact .session b after permitted moves

end Launch

/-! ### The pipe -/

/-- What the pipe has to do with the watchdog. -/
structure PipeInv (s : Launch) : Prop where
  sent : s.watchdog = .close .ready ∨ s.watchdog = .exited .ready →
    s.pipe = 1 ∧ (∀ code, s.parent ≠ .exited code) ∨ s.pipe = 0 ∧ s.parent = .exited 0
  unsent : s.watchdog ≠ .close .ready → s.watchdog ≠ .exited .ready →
    s.pipe = 0 ∧ s.parent ≠ .exited 0
  last : s.childWrite = false ↔ ∃ why, s.watchdog = .exited why
  own : s.parentWrite = true → s.parent = .closeWrite
  told : ∀ code, s.parent = .exited code → code = 0 ∨
    code = 1 ∧ (s.watchdog = .exited .ended ∨ s.watchdog = .exited .late)

theorem pipeInv_initial : PipeInv {} where
  sent was := by simp at was
  unsent _ _ := by simp
  last := by simp
  own _ := rfl
  told code is := by simp at is

/-- A byte that is written finds the parent at the pipe. -/
theorem PipeInv.readable_of_write {s : Launch} (inv : PipeInv s) (here : s.watchdog = .write) :
    s.readable = true ∧ ∀ code, s.parent ≠ .exited code := by
  have unread := (inv.unsent (by simp [here]) (by simp [here])).2
  have waits (code : Nat) : s.parent ≠ .exited code := by
    intro gone
    rcases inv.told code gone with rfl | ⟨-, ended | late⟩
    · exact unread gone
    · rw [here] at ended
      cases ended
    · rw [here] at late
      cases late
  refine ⟨?_, waits⟩
  unfold Launch.readable
  split
  next code gone => exact absurd gone (waits code)
  · rfl

/-- Inside its loop the watchdog leaves the pipe alone. -/
theorem PipeInv.watch {s : Launch} {target : WatchdogPc} (inv : PipeInv s)
    (loops : ∀ why, s.watchdog ≠ .close why ∧ s.watchdog ≠ .exited why)
    (silent : target ≠ .close .ready) (stays : ∀ why, target ≠ .exited why) :
    PipeInv { s with watchdog := target } where
  sent was := was.elim (absurd · silent) (absurd · (stays .ready))
  unsent _ _ := inv.unsent (loops .ready).1 (loops .ready).2
  last := by
    constructor
    · intro closed
      obtain ⟨why, left⟩ := inv.last.mp closed
      exact absurd left (loops why).2
    · rintro ⟨why, left⟩
      exact absurd left (stays why)
  own := inv.own
  told code gone := by
    rcases inv.told code gone with zero | ⟨-, left | left⟩
    · exact .inl zero
    · exact absurd left (loops .ended).2
    · exact absurd left (loops .late).2

theorem PipeInv.writes {s : Launch} (inv : PipeInv s) (here : s.watchdog = .write) :
    PipeInv { s with
      pipe := if s.readable then s.pipe + 1 else s.pipe
      watchdog := .close .ready } := by
  obtain ⟨open_, waits⟩ := inv.readable_of_write here
  have empty := (inv.unsent (by simp [here]) (by simp [here])).1
  exact {
    sent := fun _ => .inl ⟨by simp [open_, empty], waits⟩
    unsent := fun other => absurd rfl other
    last := by simpa [here] using inv.last
    own := inv.own
    told := fun code gone => absurd gone (waits code) }

theorem PipeInv.closes {s : Launch} {why : Verdict} (inv : PipeInv s)
    (here : s.watchdog = .close why) :
    PipeInv { s with childWrite := false, watchdog := .exited why } where
  sent was := inv.sent (.inl (by simpa [here] using was))
  unsent _ other := inv.unsent (by simpa [here] using other) (by simp [here])
  last := by simp
  own := inv.own
  told code gone := by
    rcases inv.told code gone with zero | ⟨-, left | left⟩
    · exact .inl zero
    · simp [here] at left
    · simp [here] at left

/-- The last write end is closed by a watchdog that has not written, or the byte would be there. -/
theorem PipeInv.ends {s : Launch} (inv : PipeInv s) (here : s.parent = .read)
    (empty : s.pipe = 0) (none : s.childWrite = false) :
    PipeInv { s with parent := .exited 1 } := by
  obtain ⟨why, left⟩ := inv.last.mp none
  have silent : s.watchdog ≠ .exited .ready := by
    intro wrote
    rcases inv.sent (.inr wrote) with ⟨byte, -⟩ | ⟨-, gone⟩
    · rw [empty] at byte
      cases byte
    · rw [here] at gone
      cases gone
  exact {
    sent := fun was => was.elim (fun closing => by simp [left] at closing) (absurd · silent)
    unsent := fun _ _ => ⟨empty, by simp⟩
    last := inv.last
    own := fun still => by simpa [here] using inv.own still
    told := fun code gone => by
      cases gone
      refine .inr ⟨rfl, ?_⟩
      cases why with
      | ready => exact absurd left silent
      | ended => exact .inl left
      | late => exact .inr left }

theorem PipeInv.reads {s : Launch} (inv : PipeInv s) (here : s.parent = .read)
    (byte : 0 < s.pipe) : PipeInv { s with pipe := s.pipe - 1, parent := .exited 0 } := by
  have wrote : s.watchdog = .close .ready ∨ s.watchdog = .exited .ready := by
    by_contra silent
    obtain ⟨open_, left⟩ := not_or.mp silent
    have empty := (inv.unsent open_ left).1
    omega
  have one : s.pipe = 1 := by
    rcases inv.sent wrote with ⟨one, -⟩ | ⟨zero, -⟩ <;> omega
  exact {
    sent := fun _ => .inr ⟨by simp [one], rfl⟩
    unsent := fun open_ left => absurd wrote (not_or.mpr ⟨open_, left⟩)
    last := inv.last
    own := fun still => by simpa [here] using inv.own still
    told := fun code gone => by
      cases gone
      exact .inl rfl }

theorem PipeInv.step {nqueues : Nat} {s s' : Launch} {a : LaunchAction} (inv : PipeInv s)
    (unborn : s.child = .spawn → s.watchdog = .absent)
    (step : Launch.Step nqueues s a s') : PipeInv s' := by
  cases step with
  | closesWrite here =>
    refine ⟨fun was => ?_, fun open_ left => ⟨(inv.unsent open_ left).1, by simp⟩, inv.last,
      by simp, by simp⟩
    rcases inv.sent was with ⟨one, -⟩ | ⟨-, gone⟩
    · exact .inl ⟨one, by simp⟩
    · simp [here] at gone
  | reads here byte => exact inv.reads here byte
  | ends here empty none => exact inv.ends here empty none
  | spawns here =>
    have moved : PipeInv { s with watchdog := .check 0 } :=
      inv.watch (by simp [unborn here]) (by simp) (by simp)
    exact ⟨moved.sent, moved.unsent, moved.last, moved.own, moved.told⟩
  | tooLate found i here | hears found i here | looks found i here | finds i here
  | misses i here => exact inv.watch (by simp [here]) (by simp) (by simp)
  | writes found here => exact inv.writes here
  | closes found why here => exact inv.closes here
  | closesRead | returns | stores | joins | session =>
    exact ⟨inv.sent, inv.unsent, inv.last, inv.own, inv.told⟩

/-! ### The order of things -/

structure OrderInv (nqueues : Nat) (s : Launch) : Prop where
  session : (sessionMachine nqueues).Reachable s.session
  unborn : s.watchdog = .absent ↔ s.child = .closeRead ∨ s.child = .spawn
  within : ∀ i, s.watchdog = .stat i → i < maxIters
  returned : s.child = .store ∨ s.child = .join ∨ (∃ code, s.child = .exited code) →
    s.session.main = .returned
  stored : s.done = true → s.child = .join ∨ ∃ code, s.child = .exited code
  seen : s.watchdog = .write ∨ s.watchdog = .close .ready ∨ s.watchdog = .exited .ready →
    .moved ∈ s.session.log
  ended : s.watchdog = .close .ended ∨ s.watchdog = .exited .ended → s.done = true
  exited : ∀ code, s.child = .exited code → (∃ why, s.watchdog = .exited why) ∧
    code = if s.session.result.isSome then 1 else 0

theorem orderInv_initial (nqueues : Nat) : OrderInv nqueues {} where
  session := .start rfl
  unborn := by simp
  within i is := by simp at is
  returned was := by simp at was
  stored was := by simp at was
  seen was := by simp at was
  ended was := by simp at was
  exited code is := by simp at is

section Session

variable {nqueues : Nat} {s s' : Session} {a : SessionAction}

/-- A mount that is installed was moved into place. -/
theorem moved_of_installed (reachable : (sessionMachine nqueues).Reachable s)
    (installed : s.mountInstalled = true) : .moved ∈ s.log := by
  rw [← mem_mountEvents rfl]
  cases (unwindInv_reachable reachable).mount.log with
  | absent clear | dropped clear =>
    rw [installed] at clear
    cases clear
  | installed _ events => simp [events]
  | closed _ events => simp [events]

theorem moved_step (moved : .moved ∈ s.log) (taken : s.next nqueues a = some s') :
    .moved ∈ s'.log := by
  have grows (e : SessionEvent) : .moved ∈ s.log ++ [e] := List.mem_append_left _ moved
  cases Session.next_step taken with
  | main ok step => cases step <;> first | exact moved | exact grows _
  | mounter ok step => cases step <;> first | exact moved | exact grows _
  | call step => cases step <;> exact moved
  | others effect background =>
    rcases background.init with ⟨log, -⟩ | init
    · rw [log]
      exact moved
    · rw [init.logged]
      exact grows _

/-- Behind `run()` the result stays, since only `run()` sets it. -/
theorem returned_step (returned : s.main = .returned) (taken : s.next nqueues a = some s') :
    s'.main = .returned ∧ s'.result = s.result := by
  cases Session.next_turn taken with
  | main ok taken => simp [Session.mainNext, returned] at taken
  | mounter ok step => cases step <;> exact ⟨returned, rfl⟩
  | call call => cases call <;> exact ⟨returned, rfl⟩
  | round round => cases round <;> exact ⟨returned, rfl⟩

theorem uninstalled_of_returned (reachable : (sessionMachine nqueues).Reachable s)
    (returned : s.main = .returned) : s.mountInstalled = false := by
  cases (unwindInv_reachable reachable).mount.log with
  | absent clear | dropped clear => exact clear
  | installed _ _ holds =>
    rw [returned] at holds
    cases holds
  | closed _ _ here =>
    rw [returned] at here
    cases here

end Session

theorem OrderInv.watch {nqueues : Nat} {s : Launch} {target : WatchdogPc} {pipe : Nat}
    {childWrite : Bool} (inv : OrderInv nqueues s)
    (born : s.watchdog ≠ .absent ∧ target ≠ .absent) (runs : ∀ why, s.watchdog ≠ .exited why)
    (within : ∀ i, target = .stat i → i < maxIters)
    (seen : target = .write ∨ target = .close .ready ∨ target = .exited .ready →
      .moved ∈ s.session.log)
    (ended : target = .close .ended ∨ target = .exited .ended → s.done = true) :
    OrderInv nqueues { s with watchdog := target, pipe := pipe, childWrite := childWrite } where
  session := inv.session
  unborn := ⟨fun absent => absurd absent born.2,
    fun early => absurd (inv.unborn.mpr early) born.1⟩
  within := within
  returned := inv.returned
  stored := inv.stored
  seen := seen
  ended := ended
  exited code gone := by
    obtain ⟨⟨why, left⟩, -⟩ := inv.exited code gone
    exact absurd left (runs why)

theorem OrderInv.child {nqueues : Nat} {s : Launch} {target : ChildPc} {done : Bool}
    (inv : OrderInv nqueues s)
    (unborn : s.watchdog = .absent ↔ target = .closeRead ∨ target = .spawn)
    (returned : target = .store ∨ target = .join ∨ (∃ code, target = .exited code) →
      s.session.main = .returned)
    (stored : done = true → target = .join ∨ ∃ code, target = .exited code)
    (grows : s.done = true → done = true)
    (exited : ∀ code, target = .exited code → (∃ why, s.watchdog = .exited why) ∧
      code = if s.session.result.isSome then 1 else 0) :
    OrderInv nqueues { s with child := target, done := done } where
  session := inv.session
  unborn := unborn
  within := inv.within
  returned := returned
  stored := stored
  seen := inv.seen
  ended was := grows (inv.ended was)
  exited := exited

theorem OrderInv.step {nqueues : Nat} {s s' : Launch} {a : LaunchAction}
    (inv : OrderInv nqueues s) (step : Launch.Step nqueues s a s') : OrderInv nqueues s' := by
  cases step with
  | closesWrite | reads | ends =>
    exact ⟨inv.session, inv.unborn, inv.within, inv.returned, inv.stored, inv.seen, inv.ended,
      inv.exited⟩
  | closesRead here =>
    have early : s.watchdog = .absent := inv.unborn.mpr (.inl here)
    exact inv.child (by simp [early]) (by simp)
      (fun done => by simpa [here] using inv.stored done) id (by simp)
  | spawns here =>
    refine ⟨inv.session, by simp, by simp, by simp, fun done => ?_, by simp, by simp, by simp⟩
    simpa [here] using inv.stored done
  | returns here returned =>
    exact inv.child (by simp [inv.unborn, here]) (fun _ => returned)
      (fun done => by simpa [here] using inv.stored done) id (by simp)
  | stores here =>
    exact inv.child (by simp [inv.unborn, here]) (fun _ => inv.returned (.inl here))
      (fun _ => .inl rfl) (fun _ => rfl) (by simp)
  | joins here why left =>
    refine inv.child (by simp [left]) (fun _ => inv.returned (.inr (.inl here)))
      (fun _ => .inr ⟨_, rfl⟩) id fun code is => ?_
    cases is
    exact ⟨⟨why, left⟩, rfl⟩
  | tooLate found i here | misses i here =>
    exact inv.watch (by simp [here]) (by simp [here]) (by simp) (by simp) (by simp)
  | hears found i here done =>
    exact inv.watch (by simp [here]) (by simp [here]) (by simp) (by simp) fun _ => done
  | looks found i here within =>
    refine inv.watch (by simp [here]) (by simp [here]) (fun j is => ?_) (by simp) (by simp)
    cases is
    exact within
  | finds i here installed =>
    -- `stat` has found the mount, so it was moved there; the log never forgets it.
    exact inv.watch (by simp [here]) (by simp [here]) (by simp)
      (fun _ => moved_of_installed inv.session installed) (by simp)
  | writes found here =>
    exact inv.watch (by simp [here]) (by simp [here]) (by simp)
      (fun _ => inv.seen (.inl here)) (by simp)
  | closes found why here =>
    refine inv.watch (by simp [here]) (by simp [here]) (by simp) (fun was => ?_) fun was => ?_
    · exact inv.seen (.inr (.inl (by simpa [here] using was)))
    · exact inv.ended (.inl (by simpa [here] using was))
  | session a after permitted taken =>
    have reachable : (sessionMachine nqueues).Reachable after := .step inv.session trivial taken
    -- The session of a process that is gone does nothing.
    have alive (code : Nat) : s.child ≠ .exited code := by
      intro gone
      simp [Launch.permits, gone] at permitted
    exact { inv with
      session := reachable
      returned := fun behind => (returned_step (inv.returned behind) taken).1
      seen := fun saw => moved_step (inv.seen saw) taken
      exited := fun code gone => absurd gone (alive code) }

structure LaunchInv (nqueues : Nat) (s : Launch) : Prop where
  pipe : PipeInv s
  order : OrderInv nqueues s

theorem launchInv_initial (nqueues : Nat) : LaunchInv nqueues {} :=
  ⟨pipeInv_initial, orderInv_initial nqueues⟩

theorem LaunchInv.step {nqueues : Nat} {s s' : Launch} {a : LaunchAction}
    (inv : LaunchInv nqueues s) (taken : s.next nqueues a = some s') : LaunchInv nqueues s' := by
  have step := Launch.next_step taken
  exact ⟨inv.pipe.step (fun here => inv.order.unborn.mpr (.inr here)) step, inv.order.step step⟩

theorem launchInv_reachable {nqueues : Nat} {s : Launch}
    (reachable : (launchMachine nqueues).Reachable s) : LaunchInv nqueues s :=
  reachable.invariant (LaunchInv nqueues)
    (fun v (initial : v = {}) => initial ▸ launchInv_initial nqueues)
    fun _ _ _ _ inv taken => inv.step taken

/-- The parent exits with 0 only if the mount was moved into place, and with 1 only if `run()` has
returned or the watchdog has made all its rounds. The child exits behind its watchdog, with the
result of `run()`. -/
theorem launch_truthful (nqueues : Nat) (s : Launch)
    (reachable : (launchMachine nqueues).Reachable s) :
    (∀ code, s.parent = .exited code →
      code = 0 ∧ .moved ∈ s.session.log ∨
        code = 1 ∧ (s.session.main = .returned ∨ s.watchdog = .exited .late)) ∧
    ∀ code, s.child = .exited code →
      s.session.main = .returned ∧ (∃ why, s.watchdog = .exited why) ∧
        code = if s.session.result.isSome then 1 else 0 := by
  obtain ⟨pipe, order⟩ := launchInv_reachable reachable
  refine ⟨fun code gone => ?_, fun code gone => ?_⟩
  · rcases pipe.told code gone with rfl | ⟨rfl, ended | late⟩
    · -- Only a byte makes the parent exit with 0, and a byte is written behind `stat`.
      refine .inl ⟨rfl, order.seen (.inr ?_)⟩
      by_contra silent
      obtain ⟨open_, left⟩ := not_or.mp silent
      exact (pipe.unsent open_ left).2 gone
    · exact .inr ⟨rfl, .inl (order.returned (.inr (order.stored (order.ended (.inr ended)))))⟩
    · exact .inr ⟨rfl, .inr late⟩
  · exact ⟨order.returned (.inr (.inr ⟨code, gone⟩)), order.exited code gone⟩

/-- The daemon starts, and its mount comes up. -/
def servedLaunch : List LaunchAction :=
  [.parent, .child, .child] ++ serveActions.map .session ++
    [.watchdog false, .watchdog true, .watchdog false, .watchdog false, .parent]

theorem launch_truthful_served :
    ∃ s, (launchMachine 1).exec {} servedLaunch = some s ∧
      s.parent = .exited 0 ∧ .moved ∈ s.session.log := by
  refine ⟨_, rfl, rfl, ?_⟩
  have reports := (launch_truthful 1 _
    (ReachableBy.exec (.start rfl) servedLaunch (fun _ _ _ => trivial) rfl)).1 0 rfl
  rcases reports with ⟨-, moved⟩ | ⟨wrong, -⟩
  · exact moved
  · cases wrong

/-! ### Progress -/

def ParentPc.distance : ParentPc → Nat
  | .closeWrite => 2
  | .read => 1
  | .exited _ => 0

def ChildPc.distance : ChildPc → Nat
  | .closeRead => 5
  | .spawn => 4
  | .run => 3
  | .store => 2
  | .join => 1
  | .exited _ => 0

/-- Two steps a round, and two to write and to close. -/
def WatchdogPc.distance : WatchdogPc → Nat
  | .absent => 2 * maxIters + 2
  | .check i => 2 * (maxIters - i) + 2
  | .stat i => 2 * (maxIters - i) + 1
  | .write => 2
  | .close _ => 1
  | .exited _ => 0

def LaunchAction.obliged : LaunchAction → Bool
  | .session a => a.obliged
  | .parent | .child | .watchdog _ => true

namespace Launch

def distance (nqueues : Nat) (s : Launch) : Nat :=
  s.parent.distance + s.child.distance + s.watchdog.distance + s.session.distance nqueues

/-- The watchdog asks the file system itself, which may take its time to answer. -/
structure Asking (s : Launch) : Prop where
  installed : s.session.mountInstalled = true
  asks : ∃ i, s.watchdog = .stat i

/-- No obliged action is possible but the answer to a `stat` of the file system itself. -/
def Blocked (nqueues : Nat) (s : Launch) : Prop :=
  ∀ a : LaunchAction, a.obliged = true → s.next nqueues a ≠ none →
    s.Asking ∧ ∃ found, a = .watchdog found

variable {nqueues : Nat} {s s' : Launch} {a : LaunchAction}

theorem distance_step (inv : LaunchInv nqueues s) (taken : s.next nqueues a = some s') :
    s'.distance nqueues + 1 ≤ s.distance nqueues + if a.obliged then 0 else 3 := by
  cases next_step taken with
  | closesWrite here | reads here | ends here | closesRead here | returns here | stores here
  | joins here =>
    simp only [distance, here, ParentPc.distance, ChildPc.distance, LaunchAction.obliged, if_true]
    omega
  | spawns here =>
    have absent := inv.order.unborn.mpr (.inr here)
    simp only [distance, here, absent, ChildPc.distance, WatchdogPc.distance,
      LaunchAction.obliged, if_true]
    omega
  | tooLate found i here | hears found i here | looks found i here | writes found here
  | closes found why here =>
    simp only [distance, here, WatchdogPc.distance, LaunchAction.obliged, if_true]
    omega
  | finds i here | misses i here =>
    have within := inv.order.within i here
    simp only [distance, here, WatchdogPc.distance, LaunchAction.obliged, if_true]
    omega
  | session b after permitted moves =>
    have paid := Fex.distance_step (progressInv_of_reachable inv.order.session) moves
    have due : (LaunchAction.session b).obliged = b.obliged := rfl
    rw [due]
    unfold distance
    dsimp only
    omega

namespace Blocked

theorem parent (blocked : s.Blocked nqueues) : s.parentNext = none := by
  by_contra moves
  obtain ⟨-, found, is⟩ := blocked .parent rfl moves
  cases is

theorem child (blocked : s.Blocked nqueues) : s.childNext = none := by
  by_contra moves
  obtain ⟨-, found, is⟩ := blocked .child rfl moves
  cases is

/-- While the main thread is in `run()`, the session is blocked by itself. -/
theorem session (blocked : s.Blocked nqueues) (runs : s.child = .run) :
    s.session.Blocked nqueues := by
  intro a due
  by_contra moves
  obtain ⟨after, taken⟩ := Option.ne_none_iff_exists'.mp moves
  have permitted : s.permits a = true := by simp [permits, runs]
  obtain ⟨-, found, is⟩ := blocked (.session a) due (by simp [next, permitted, taken])
  cases is

/-- A watchdog that was born has left, or it asks the file system. -/
theorem watchdog (blocked : s.Blocked nqueues) (born : s.watchdog ≠ .absent) :
    (∃ why, s.watchdog = .exited why) ∨ s.Asking := by
  by_cases moves : s.watchdogNext false = none
  · left
    unfold watchdogNext at moves
    split at moves
    next absent => exact absurd absent born
    next why left => exact ⟨why, left⟩
    next => split at moves <;> (try split at moves) <;> cases moves
    all_goals cases moves
  · exact .inr (blocked (.watchdog false) rfl moves).1

end Blocked

/-- The main thread has ended, or it is in `run()`. -/
theorem Blocked.child_cases (inv : LaunchInv nqueues s) (blocked : s.Blocked nqueues) :
    (∃ code, s.child = .exited code) ∨ s.session.Unserved ∨ s.session.Serving := by
  have stuck := blocked.child
  cases here : s.child with
  | closeRead | spawn | store => simp [childNext, here] at stuck
  | run =>
    rcases blocked_cases (progressInv_of_reachable inv.order.session) (blocked.session here) with
      returned | waits
    · simp [childNext, here, returned] at stuck
    · exact .inr waits
  | join =>
    have born : s.watchdog ≠ .absent := by simp [ne_eq, inv.order.unborn, here]
    rcases blocked.watchdog born with ⟨why, left⟩ | asking
    · simp [childNext, here, left] at stuck
    · -- Behind `run()` there is no mount that could keep the watchdog.
      have gone := uninstalled_of_returned inv.order.session (inv.order.returned (.inr (.inl here)))
      rw [asking.installed] at gone
      cases gone
  | exited code => exact .inl ⟨code, rfl⟩

theorem Blocked.parent_cases (inv : LaunchInv nqueues s) (blocked : s.Blocked nqueues) :
    (∃ code, s.parent = .exited code) ∨ s.Asking := by
  have stuck := blocked.parent
  cases here : s.parent with
  | closeWrite => simp [parentNext, here] at stuck
  | read =>
    -- The main thread of the child does not wait before it has started the watchdog.
    have born : s.watchdog ≠ .absent := by
      rw [ne_eq, inv.order.unborn]
      rintro (early | early) <;> simpa [childNext, early] using blocked.child
    rcases blocked.watchdog born with ⟨why, left⟩ | asking
    · have closed : s.childWrite = false := inv.pipe.last.mpr ⟨why, left⟩
      have own : s.parentWrite = false := by
        by_contra still
        have early := inv.pipe.own (by simpa using still)
        rw [here] at early
        cases early
      simp only [parentNext, here, closed, own, Bool.or_self] at stuck
      split at stuck <;> cases stuck
    · exact .inr asking
  | exited code => exact .inl ⟨code, rfl⟩

end Launch

/-- Every run of the two processes is bounded by the distance, and where it stops both have ended,
or the child serves requests or waits for a worker that has left; the parent is still there only if
the file system does not answer the watchdog. -/
theorem launch_ends (nqueues : Nat) (s s' : Launch)
    (reachable : (launchMachine nqueues).Reachable s) (actions : List LaunchAction)
    (ends : (launchMachine nqueues).exec s actions = some s') :
    actions.length ≤ s.distance nqueues + 3 * actions.countP (fun a => !a.obliged) ∧
      (s'.Blocked nqueues →
        ((∃ code, s'.parent = .exited code) ∨ s'.Asking) ∧
          ((∃ code, s'.child = .exited code) ∨ s'.session.Unserved ∨ s'.session.Serving)) := by
  have inv := launchInv_reachable reachable
  constructor
  · have bound := exec_length_le (LaunchInv nqueues) (Launch.distance nqueues)
      LaunchAction.obliged 3
      (fun v a v' inv taken => ⟨LaunchInv.step inv taken, Launch.distance_step inv taken⟩)
      inv actions ends
    omega
  · intro blocked
    have later := exec_invariant (LaunchInv nqueues)
      (fun v a v' inv taken => LaunchInv.step inv taken) inv actions ends
    exact ⟨blocked.parent_cases later, blocked.child_cases later⟩

/-- `run()` fails at once; the watchdog notices, and the parent reads the end of the pipe. -/
def failedLaunch : List LaunchAction :=
  [.parent, .child, .child, .session (.main false), .session (.main true), .session (.main true),
    .child, .child, .watchdog false, .watchdog false, .parent, .child]

theorem launch_ends_failed :
    ∃ s', (launchMachine 1).exec {} failedLaunch = some s' ∧ s'.Blocked 1 ∧
      failedLaunch.length ≤
        Launch.distance 1 {} + 3 * failedLaunch.countP (fun a => !a.obliged) ∧
      ((∃ code, s'.parent = .exited code) ∨ s'.Asking) ∧
        ((∃ code, s'.child = .exited code) ∨ s'.session.Unserved ∨ s'.session.Serving) := by
  have blocked (s' : Launch) (ends : (launchMachine 1).exec {} failedLaunch = some s') :
      s'.Blocked 1 := by
    cases ends
    rintro (_ | _ | found | a) - moves <;> exact absurd rfl moves
  have both := launch_ends 1 {} _ (.start rfl) failedLaunch rfl
  exact ⟨_, rfl, blocked _ rfl, both.1, both.2 (blocked _ rfl)⟩

end Passthrough

end Fex
