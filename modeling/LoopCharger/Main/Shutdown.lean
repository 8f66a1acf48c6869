import LoopCharger.Main.Program

/-!
# The end of the program

`main` of `src/main.c` joins one thread after the other, and each join waits for the thread to end.
A thread that has ended stays so, and it is the only one that could do what it did. So nothing is
written to the table of the alarms when its database has been closed, and no unit is left with a
connection.

## Main definitions

* `Party`: the threads, with the events and the steps of each.
* `Ended`, `MainPhase.Joined`: a thread has ended, and `main` has joined it.
* `Orderly`: what every step keeps.

## Main results

* `Ended.step`: a thread that has ended.
* `quiet_once_joined`: a thread that is joined has ended for good, in every run.
-/

namespace LoopCharger.Main

open Lib Cmos Modbus DeviceMap Ups Alarm

variable {γ : Type*} (api : UnitApi γ) (owners : List ℕ) (upsCount : ℕ)

/-! ### Threads that have ended -/

/-- The threads of the program. -/
inductive Party
  | main
  | monitor
  | subscriber
  | poller
  | unit (k : ℕ)
  deriving DecidableEq

/-- The thread of an event. -/
def ProgramEvent.party : ProgramEvent → Party
  | .units (.fleet (.accepted _ _ _)) => .subscriber
  | .units (.fleet (.thread k _)) => .unit k
  | .units (.looked _ _) | .units (.pub _) => .poller
  | .evaluated _ _ | .alarm _ _ | .written _ => .monitor

/-- `main` is not seen. -/
theorem ProgramEvent.party_ne_main (e : ProgramEvent) : e.party ≠ .main := by
  rcases e with (⟨_ | _⟩ | _ | _) | _ | _ | _ <;> exact Party.noConfusion

/-- The thread of a unit has ended. -/
def Halted (g : Telemetry γ) (k : ℕ) : Prop :=
  ∀ t, g.fleet.units[k]? = some t → t.phase = .stopped ∧ g.due k = none

/-- A thread has ended. -/
def Ended (p : Program γ) : Party → Prop
  | .main => p.phase = .returned
  | .monitor => p.monitor.phase = .stopped
  | .subscriber => p.subscriber = .ended
  | .poller => p.units.poller = .ended
  | .unit k => Halted p.units k

/-- `main` has joined a thread. -/
def MainPhase.Joined : MainPhase → Party → Prop
  | .testing, _ | .calling, _ | .pausing, _ | .stoppingMonitor, _ | .joiningMonitor, _ => False
  | .stoppingBridge, x | .joiningSubscriber, x => x = .monitor
  | .joiningPoller, x => x = .monitor ∨ x = .subscriber
  | .stoppingUnits _, x => x = .monitor ∨ x = .subscriber ∨ x = .poller
  | .joiningUnits k, x => x = .monitor ∨ x = .subscriber ∨ x = .poller ∨ ∃ j < k, x = .unit j
  | .closing, x | .returned, x => x ≠ .main

theorem party_of_mem_managerOf {env : LogEnv} {m : AlarmManager} {es : List MonitorEvent}
    {e : ProgramEvent} (h : e ∈ (managerOf env).trace m es) : e.party = .monitor := by
  induction es generalizing m with
  | nil => exact absurd h List.not_mem_nil
  | cons x es ih =>
    rw [Machine.trace_cons, List.mem_append] at h
    refine h.elim (fun h => ?_) ih
    cases x with
    | evaluated c entry =>
      obtain rfl := List.mem_singleton.mp h
      rfl
    | alarm c x =>
      rcases List.mem_cons.mp h with rfl | h
      · rfl
      · obtain ⟨row, -, rfl⟩ := List.mem_map.mp h
        rfl

/-- Whose step it is. -/
def partyOf : TelemetryAction → Party
  | .onWrite _ _ _ => .subscriber
  | .thread k => .unit k
  | .poll _ _ => .poller
  | .stopBridge | .stop _ => .main

theorem party_of_mem_telemetryStep {g : Telemetry γ} {a : TelemetryAction} {e : TelemetryEvent}
    (h : e ∈ (telemetryStep upsUidProfileMap api owners upsCount g a).2) :
    (ProgramEvent.units e).party = partyOf a := by
  cases a with
  | onWrite uid addr val =>
    obtain ⟨e, he, rfl⟩ := List.mem_map.mp h
    simp only [fleetStep] at he
    split_ifs at he
    · obtain ⟨k, -, rfl⟩ := Option.map_eq_some_iff.mp (Option.mem_toList.mp he)
      rfl
    · cases he
  | thread k =>
    simp only [telemetryStep, unitStep] at h
    split at h
    · cases h
    split at h
    · cases h
    · rename_i t hget
      obtain ⟨e, he, rfl⟩ := List.mem_map.mp h
      simp only [fleetStep, hget] at he
      obtain ⟨e, -, rfl⟩ := List.mem_map.mp he
      rfl
  | poll arrived result =>
    simp only [telemetryStep, pollStep] at h
    split at h
    · split_ifs at h
      · obtain ⟨e, -, rfl⟩ := List.mem_map.mp h
        rfl
      · cases h
    · cases h
    · obtain rfl := List.mem_singleton.mp h
      rfl
    · split at h
      · cases h
      · obtain ⟨e, -, rfl⟩ := List.mem_map.mp h
        rfl
    · cases h
  | stopBridge => cases h
  | stop k => rw [telemetryStep_stop api owners upsCount g (.inr ⟨k, rfl⟩)] at h; cases h

/-- A unit whose thread has ended is done with: no step changes that, or is one of its thread. -/
theorem Halted.step {g : Telemetry γ} {k : ℕ} (h : Halted g k) (a : TelemetryAction) :
    Halted (telemetryStep upsUidProfileMap api owners upsCount g a).1 k ∧
      (partyOf a = .unit k →
        (telemetryStep upsUidProfileMap api owners upsCount g a).2 = []) := by
  have hother : ∀ b : FleetAction, b.isThread k = false → ∀ u,
      (fleetStep upsUidProfileMap api g.fleet b).1.units[k]? = some u →
      u.phase = .stopped ∧ g.due k = none := by
    intro b hb u hu
    obtain ⟨t, ht, hphase, -⟩ := exists_of_fleetStep_other hb hu
    exact ⟨hphase.trans (h t ht).1, (h t ht).2⟩
  cases a with
  | onWrite uid addr val => exact ⟨hother _ rfl, fun heq => Party.noConfusion heq⟩
  | thread j =>
    cases hj : g.due j with
    | some state =>
      simp only [telemetryStep, unitStep, hj]
      refine ⟨fun t ht => ⟨(h t ht).1, ?_⟩, fun _ => trivial⟩
      have hjk : k ≠ j := by
        rintro rfl
        exact Option.some_ne_none _ (hj.symm.trans (h t ht).2)
      exact (Function.update_of_ne hjk _ _).trans (h t ht).2
    | none =>
      rcases hget : g.fleet.units[j]? with _ | t
      · simp only [telemetryStep, unitStep, hj, hget]
        exact ⟨h, fun _ => trivial⟩
      simp only [telemetryStep, unitStep, hj, hget]
      by_cases hjk : j = k
      · subst hjk
        have hphase := (h t hget).1
        have hstep : threadStep api t = (t, []) := by simp only [threadStep, hphase]
        refine ⟨fun u hu => ⟨?_, ?_⟩, fun _ => ?_⟩
        · rw [fleetStep_thread upsUidProfileMap api hget, hstep] at hu
          exact Option.some.inj hu ▸ hphase
        · simp only [Function.update_self, hstep, hphase, dueAfter]
        · simp only [fleetStep, hget, hstep, List.map_nil]
      · refine ⟨fun u hu => ?_, fun heq => absurd (Party.unit.inj heq) hjk⟩
        obtain ⟨hphase, hdue⟩ := hother (.thread j) (decide_eq_false hjk) u hu
        exact ⟨hphase, (Function.update_of_ne (Ne.symm hjk) _ _).trans hdue⟩
  | poll arrived result =>
    obtain ⟨hfleet, -, hdue⟩ := pollStep_frame upsCount g arrived result
    simp only [telemetryStep, Halted, hfleet, hdue]
    exact ⟨h, fun heq => Party.noConfusion heq⟩
  | stopBridge => exact ⟨h, fun heq => Party.noConfusion heq⟩
  | stop j =>
    simp only [telemetryStep]
    split
    · exact ⟨hother _ rfl, fun heq => Party.noConfusion heq⟩
    · exact ⟨h, fun heq => Party.noConfusion heq⟩

/-- The poll thread, when it has ended. -/
theorem telemetryStep_poller_ended {g : Telemetry γ} (h : g.poller = .ended)
    (a : TelemetryAction) :
    (telemetryStep upsUidProfileMap api owners upsCount g a).1.poller = .ended ∧
      (partyOf a = .poller → (telemetryStep upsUidProfileMap api owners upsCount g a).2 = []) := by
  cases a with
  | onWrite uid addr val => exact ⟨h, fun heq => Party.noConfusion heq⟩
  | thread k =>
    simp only [telemetryStep, unitStep]
    split
    · exact ⟨h, fun heq => Party.noConfusion heq⟩
    · split <;> exact ⟨h, fun heq => Party.noConfusion heq⟩
  | poll arrived result =>
    simp only [telemetryStep, pollStep, h]
    exact ⟨trivial, fun _ => trivial⟩
  | stopBridge => exact ⟨h, fun heq => Party.noConfusion heq⟩
  | stop k =>
    simp only [telemetryStep]
    split <;> exact ⟨h, fun heq => Party.noConfusion heq⟩

def ProgramAction.party : ProgramAction → Party
  | .unit k => .unit k
  | .onWrite _ _ _ | .subscriber => .subscriber
  | .poll _ _ => .poller
  | .monitor _ _ => .monitor
  | .signal | .main => .main

theorem party_of_mem_programStep {p : Program γ} {a : ProgramAction} {e : ProgramEvent}
    (h : e ∈ (programStep api owners upsCount p a).2) : e.party = a.party := by
  have hunits : ∀ b, e ∈ (unitsStep api owners upsCount p b).2 → e.party = partyOf b := by
    intro b hb
    obtain ⟨e, he, rfl⟩ := List.mem_map.mp hb
    exact party_of_mem_telemetryStep api owners upsCount he
  cases a with
  | unit k => exact hunits _ h
  | poll arrived result => exact hunits _ h
  | monitor nowMs env => exact party_of_mem_managerOf h
  | onWrite uid addr val =>
    simp only [programStep] at h
    split_ifs at h
    · cases h
    · exact hunits _ h
  | subscriber =>
    simp only [programStep] at h
    split_ifs at h <;> cases h
  | signal | main => cases h

/-- `main` has not returned when it goes on. -/
theorem GoesOn.ne_returned {p : Program γ} {phase : MainPhase} (h : GoesOn p phase) :
    p.phase ≠ .returned := by
  intro hreturned
  cases h <;> exact MainPhase.noConfusion (hreturned.symm.trans ‹_›)

/-- What `main` leaves of the monitor, of the subscriber and of itself when they have ended. -/
theorem mainStep_frame (p : Program γ) :
    (mainStep api owners upsCount p).monitor.phase = p.monitor.phase ∧
      (p.subscriber = .ended → (mainStep api owners upsCount p).subscriber = .ended) ∧
      (p.phase = .returned → mainStep api owners upsCount p = p) := by
  have hstep := mainStep_cases api owners upsCount p
  generalize mainStep api owners upsCount p = q at hstep ⊢
  cases hstep with
  | waits => exact ⟨rfl, id, fun _ => rfl⟩
  | goesOn h => exact ⟨rfl, id, fun hreturned => absurd hreturned h.ne_returned⟩
  | stopBridge hphase =>
    refine ⟨rfl, fun hended => ?_, fun h => MainPhase.noConfusion (hphase.symm.trans h)⟩
    simp only [hended, reduceCtorEq, if_false]
  | stopMonitor hphase | stopUnit hphase | closes hphase =>
    exact ⟨rfl, id, fun h => MainPhase.noConfusion (hphase.symm.trans h)⟩

/-- **Threads that have ended.** They stay so whatever happens, and nothing more is seen of them. -/
theorem Ended.step {p : Program γ} {x : Party} (h : Ended p x) (a : ProgramAction) :
    Ended (programStep api owners upsCount p a).1 x ∧
      ∀ e ∈ (programStep api owners upsCount p a).2, e.party ≠ x := by
  have hsilent : (a.party = x → (programStep api owners upsCount p a).2 = []) →
      ∀ e ∈ (programStep api owners upsCount p a).2, e.party ≠ x := by
    intro hnil e he heq
    have hparty := party_of_mem_programStep api owners upsCount he
    rw [hnil (hparty.symm.trans heq)] at he
    cases he
  obtain ⟨hmonitor, hsub, hmain⟩ := mainStep_frame api owners upsCount p
  cases x with
  | main =>
    refine ⟨?_, hsilent fun ha => by cases a <;> first | rfl | cases ha⟩
    have hphase : p.phase = .returned := h
    cases a with
    | signal => simp [Ended, programStep, hphase]
    | main => simpa only [Ended, programStep, hmain hphase] using hphase
    | onWrite uid addr val | subscriber =>
      simp only [programStep]
      split_ifs <;> exact hphase
    | _ => exact hphase
  | monitor =>
    have hphase : p.monitor.phase = .stopped := h
    have hstep : ∀ nowMs pool, monitorStep p.monitor nowMs pool = (p.monitor, []) := fun _ _ => by
      simp only [monitorStep, hphase]
    cases a with
    | monitor nowMs env =>
      simp only [programStep, hstep]
      exact ⟨hphase, fun e he => absurd he List.not_mem_nil⟩
    | main => exact ⟨hmonitor.trans hphase, hsilent fun _ => rfl⟩
    | onWrite uid addr val | subscriber =>
      refine ⟨?_, hsilent fun ha => by cases ha⟩
      simp only [programStep]
      split_ifs <;> exact hphase
    | _ => exact ⟨hphase, hsilent fun ha => by cases ha⟩
  | subscriber =>
    have hended : p.subscriber = .ended := h
    cases a with
    | onWrite uid addr val =>
      simp only [programStep, if_pos hended]
      exact ⟨hended, fun e he => absurd he List.not_mem_nil⟩
    | subscriber =>
      simp only [programStep, hended, reduceCtorEq, if_false]
      exact ⟨hended, fun e he => absurd he List.not_mem_nil⟩
    | main => exact ⟨hsub hended, hsilent fun _ => rfl⟩
    | _ => exact ⟨hended, hsilent fun ha => by cases ha⟩
  | poller =>
    have hended : p.units.poller = .ended := h
    have hkeep := telemetryStep_poller_ended api owners upsCount hended
    refine ⟨?_, hsilent fun ha => ?_⟩
    · rcases programStep_units api owners upsCount p a with ⟨b, hunits, -⟩ | ⟨hunits, -⟩
      · exact (congrArg Telemetry.poller hunits).trans (hkeep b).1
      · exact (congrArg Telemetry.poller hunits).trans hended
    · cases a with
      | poll arrived result => exact List.map_eq_nil_iff.mpr ((hkeep _).2 rfl)
      | _ => cases ha
  | unit k =>
    have hkeep := Halted.step api owners upsCount (show Halted p.units k from h)
    refine ⟨?_, hsilent fun ha => ?_⟩
    · rcases programStep_units api owners upsCount p a with ⟨b, hunits, -⟩ | ⟨hunits, -⟩
      · exact (congrArg (Halted · k) hunits).mpr (hkeep b).1
      · exact (congrArg (Halted · k) hunits).mpr h
    · cases a with
      | unit j => exact List.map_eq_nil_iff.mpr ((hkeep _).2 ha)
      | _ => cases ha

/-- `main` goes on from a join only when the thread has ended. -/
theorem joined_goesOn {p : Program γ} {phase : MainPhase} (hnext : GoesOn p phase)
    (hmonitor : p.monitor.running = false → p.phase = .stoppingMonitor → Ended p .monitor)
    {x : Party} (h : phase.Joined x) : p.phase.Joined x ∨ Ended p x := by
  cases hnext with
  | signalled | running | calls => exact h.elim
  | unmonitored hphase hrunning =>
    obtain rfl : x = .monitor := h
    exact .inr (hmonitor hrunning hphase)
  | monitor hphase hended =>
    obtain rfl : x = .monitor := h
    exact .inr hended
  | subscriber hphase hended =>
    rw [hphase]
    rcases h with hx | hx
    · exact .inl hx
    · exact .inr (hx ▸ hended)
  | poller hphase hended =>
    rw [hphase]
    rcases h with hx | hx | hx
    · exact .inl (.inl hx)
    · exact .inl (.inr hx)
    · exact .inr (hx ▸ hended)
  | stopped hphase =>
    rw [hphase]
    rcases h with hx | hx | hx | ⟨j, hj, -⟩
    · exact .inl (.inl hx)
    · exact .inl (.inr (.inl hx))
    · exact .inl (.inr (.inr hx))
    · exact absurd hj (Nat.not_lt_zero j)
  | unit hphase hget hended =>
    rw [hphase]
    rcases h with hx | hx | hx | ⟨j, hj, hx⟩
    · exact .inl (.inl hx)
    · exact .inl (.inr (.inl hx))
    · exact .inl (.inr (.inr (.inl hx)))
    rcases Nat.lt_succ_iff_lt_or_eq.mp hj with hj | rfl
    · exact .inl (.inr (.inr (.inr ⟨j, hj, hx⟩)))
    · refine .inr (hx ▸ fun u hu => ?_)
      obtain rfl := Option.some.inj (hget.symm.trans hu)
      exact hended
  | last hphase hlength =>
    rw [hphase]
    cases x with
    | main => exact absurd rfl h
    | monitor => exact .inl (.inl rfl)
    | subscriber => exact .inl (.inr (.inl rfl))
    | poller => exact .inl (.inr (.inr (.inl rfl)))
    | unit j =>
      rcases Nat.lt_or_ge j _ with hj | hj
      · exact .inl (.inr (.inr (.inr ⟨j, hj, rfl⟩)))
      · have hnone := List.getElem?_eq_none (hlength.trans hj)
        exact .inr fun t ht => absurd (ht.symm.trans hnone) (Option.some_ne_none t)

theorem joined_mainStep {p : Program γ}
    (hmonitor : p.monitor.running = false → p.phase = .stoppingMonitor → Ended p .monitor)
    {x : Party} (h : (mainStep api owners upsCount p).phase.Joined x) :
    p.phase.Joined x ∨ Ended p x := by
  have hstep := mainStep_cases api owners upsCount p
  generalize mainStep api owners upsCount p = q at hstep h
  cases hstep with
  | waits => exact .inl h
  | goesOn hnext => exact joined_goesOn hnext hmonitor h
  | stopMonitor => exact h.elim
  | stopBridge hphase | stopUnit hphase | closes hphase =>
    rw [hphase]
    exact .inl h

/-- What every step keeps. -/
structure Orderly (p : Program γ) : Prop where
  joined : ∀ x, p.phase.Joined x → Ended p x
  /-- A monitor that has not been created is not told to stop. -/
  monitor : p.monitor.running = false → p.phase = .joiningMonitor ∨ Ended p .monitor
  closed : p.phase = .returned → p.manager.dbOpen = false

theorem monitorStep_running (m : Monitor) (nowMs : UInt64) (pool : Pool) :
    (monitorStep m nowMs pool).1.running = m.running := by
  unfold monitorStep
  split
  case h_2 => split_ifs <;> rfl
  case h_3 =>
    split
    · rfl
    · split <;> rfl
  all_goals rfl

/-- The flag of the monitor is cleared when `main` waits for it, and not again. -/
theorem mainStep_running (p : Program γ) :
    (mainStep api owners upsCount p).monitor.running = p.monitor.running ∨
      (mainStep api owners upsCount p).phase = .joiningMonitor := by
  have hstep := mainStep_cases api owners upsCount p
  generalize mainStep api owners upsCount p = q at hstep ⊢
  cases hstep with
  | stopMonitor => exact .inr rfl
  | _ => exact .inl rfl

/-- `main` waits for the monitor until it has ended. -/
theorem mainStep_joiningMonitor {p : Program γ} (h : p.phase = .joiningMonitor) :
    (mainStep api owners upsCount p).phase = .joiningMonitor ∨ Ended p .monitor := by
  cases hended : p.monitor.phase with
  | stopped => exact .inr hended
  | _ => exact .inl (by simp only [mainStep, h, hended])

/-- `main` returns from its last step only. -/
theorem mainStep_returned {p : Program γ}
    (h : (mainStep api owners upsCount p).phase = .returned) :
    p.phase = .closing ∨ p.phase = .returned := by
  have hstep := mainStep_cases api owners upsCount p
  generalize mainStep api owners upsCount p = q at hstep h
  cases hstep with
  | waits => exact .inr h
  | goesOn hnext => cases hnext <;> cases h
  | closes hphase => exact .inl hphase
  | stopMonitor | stopBridge | stopUnit => cases h

theorem mainStep_closed {p : Program γ} (h : p.phase = .returned → p.manager.dbOpen = false)
    (hreturned : (mainStep api owners upsCount p).phase = .returned) :
    (mainStep api owners upsCount p).manager.dbOpen = false := by
  rcases mainStep_returned api owners upsCount hreturned with hphase | hphase
  · simp only [mainStep, hphase, upsAlarmManagerClose]
  · rw [(mainStep_frame api owners upsCount p).2.2 hphase]
    exact h hphase

theorem Orderly.main {p : Program γ} (h : Orderly p) :
    Orderly (mainStep api owners upsCount p) := by
  have hkeep : ∀ x, Ended p x → Ended (mainStep api owners upsCount p) x := fun x hx =>
    (Ended.step api owners upsCount hx .main).1
  refine ⟨fun x hx => ?_, fun hrunning => ?_, mainStep_closed api owners upsCount h.closed⟩
  · refine hkeep x ((joined_mainStep api owners upsCount (fun hstop hphase => ?_) hx).elim
      (h.joined x) id)
    exact (h.monitor hstop).resolve_left fun hjoin =>
      MainPhase.noConfusion (hphase.symm.trans hjoin)
  · rcases mainStep_running api owners upsCount p with hsame | hjoin
    · rcases h.monitor (hsame.symm.trans hrunning) with hjoin | hended
      · exact (mainStep_joiningMonitor api owners upsCount hjoin).imp_right (hkeep _)
      · exact .inr (hkeep _ hended)
    · exact .inl hjoin

/-- A step that leaves `main` and the flag of the monitor as they are. -/
theorem Orderly.of_eq {p q : Program γ} (h : Orderly p) (hkeep : ∀ x, Ended p x → Ended q x)
    (hphase : q.phase = p.phase) (hrunning : q.monitor.running = p.monitor.running)
    (hmanager : Ended p .monitor → q.manager = p.manager) : Orderly q := by
  refine ⟨fun x hx => hkeep x (h.joined x (hphase ▸ hx)), fun hstop => ?_, fun hreturned => ?_⟩
  · rw [hphase]
    exact (h.monitor (hrunning.symm.trans hstop)).imp_right (hkeep _)
  · rw [hphase] at hreturned
    have hended : Ended p .monitor := h.joined .monitor (by rw [hreturned]; exact Party.noConfusion)
    rw [hmanager hended]
    exact h.closed hreturned

theorem Orderly.step {p : Program γ} (h : Orderly p) (a : ProgramAction) :
    Orderly (programStep api owners upsCount p a).1 := by
  have hkeep : ∀ x, Ended p x → Ended (programStep api owners upsCount p a).1 x := fun x hx =>
    (Ended.step api owners upsCount hx a).1
  cases a with
  | main => exact h.main api owners upsCount
  | signal =>
    by_cases hphase : p.phase = .pausing
    · simp only [programStep, if_pos hphase] at hkeep ⊢
      refine ⟨fun x hx => hx.elim, fun hstop => ?_,
        fun hreturned => MainPhase.noConfusion hreturned⟩
      refine .inr (hkeep .monitor ((h.monitor hstop).resolve_left fun hjoin => ?_))
      exact MainPhase.noConfusion (hphase.symm.trans hjoin)
    · exact h.of_eq hkeep (if_neg hphase) rfl fun _ => rfl
  | monitor nowMs env =>
    refine h.of_eq hkeep rfl (monitorStep_running _ _ _) fun hended => ?_
    have hphase : p.monitor.phase = .stopped := hended
    simp only [programStep, monitorStep, hphase, Machine.state_nil]
  | unit k => exact h.of_eq hkeep rfl rfl fun _ => rfl
  | poll arrived result => exact h.of_eq hkeep rfl rfl fun _ => rfl
  | onWrite uid addr val =>
    refine h.of_eq hkeep ?_ ?_ fun _ => ?_ <;> simp only [programStep] <;> split_ifs <;> rfl
  | subscriber =>
    refine h.of_eq hkeep ?_ ?_ fun _ => ?_ <;> simp only [programStep] <;> split_ifs <;> rfl

/-- A thread ends by closing its connection. -/
theorem disconnected_threadStep {t : UnitThread γ}
    (h : t.phase = .stopped → ∃ c, t.unit.tcpCtx = api.disconnect c)
    (hstopped : (threadStep api t).1.phase = .stopped) :
    ∃ c, (threadStep api t).1.unit.tcpCtx = api.disconnect c := by
  cases hphase : t.phase with
  | connecting =>
    by_cases hrunning : t.running = true
    · simp only [threadStep, hphase, if_pos hrunning] at hstopped
      split_ifs at hstopped
    · exact ⟨t.unit.tcpCtx, by simp only [threadStep, hphase, if_neg hrunning]⟩
  | stopped =>
    simp only [threadStep, hphase]
    exact h hphase
  | polling =>
    simp only [threadStep, hphase] at hstopped
    split_ifs at hstopped
  | draining =>
    simp only [threadStep, hphase] at hstopped
    split at hstopped <;> cases hstopped
  | scanning buf segs =>
    cases segs with
    | nil =>
      simp only [threadStep, hphase] at hstopped
      cases hstopped
    | cons seg segs =>
      simp only [threadStep, hphase] at hstopped
      split_ifs at hstopped
  | storing stores buf segs =>
    cases stores <;> simp only [threadStep, hphase] at hstopped <;> cases hstopped
  | writing | failed =>
    simp only [threadStep, hphase] at hstopped
    cases hstopped

/-- A thread that has ended has closed its connection. -/
theorem disconnected_of_stopped (map : UidProfileMap) (created : ℕ → Bool) (conns : ℕ → γ)
    (ups : List ModuleConfig) (actions : List FleetAction) :
    ∀ t ∈ ((fleetMachine map api).state (.start map created conns ups) actions).units,
      t.phase = .stopped → ∃ c, t.unit.tcpCtx = api.disconnect c := by
  refine (fleetMachine map api).invariant
    (fun f => ∀ t ∈ f.units, t.phase = .stopped → ∃ c, t.unit.tcpCtx = api.disconnect c)
    (fun t ht hstopped => ?_) (fun f a h u hu hstopped => ?_) actions
  · rcases mem_startLoop map created conns 0 ups 0 [] ht with hnil | ⟨cfg, profile, j, -, rfl⟩
    · cases hnil
    · cases hstopped
  obtain ⟨k, hget⟩ := List.mem_iff_getElem?.mp hu
  obtain ⟨t, ht, -⟩ := fleetStep_cfg map api f a hget
  have hold := h t (List.mem_of_getElem? ht)
  cases ha : a.isThread k with
  | false =>
    obtain ⟨u', hu', hphase, htcp, -⟩ := fleetStep_other map api f ha ht
    obtain rfl := Option.some.inj (hu'.symm.trans hget)
    rw [htcp]
    exact hold (hphase.symm.trans hstopped)
  | true =>
    obtain rfl : a = .thread k := by
      cases a <;> simp [FleetAction.isThread] at ha
      rw [ha]
    obtain rfl := Option.some.inj ((fleetStep_thread map api ht).symm.trans hget)
    exact disconnected_threadStep api hold hstopped

section Run

variable (created : ℕ → Bool) (monitored : Bool) (conns : ℕ → γ) (ups : List ModuleConfig)
  (stored : List LogRow)

theorem orderly_reached (actions : List ProgramAction) :
    Orderly (Program.reached api created monitored conns ups stored actions) := by
  refine (programMachine api _ ups.length).invariant Orderly ?_
    (fun p a h => h.step api _ ups.length a) actions
  refine ⟨fun x hx => hx.elim, fun hstop => .inr ?_,
    fun hreturned => MainPhase.noConfusion hreturned⟩
  obtain rfl : monitored = false := hstop
  rfl

/-- **Joined threads.** In every run of the program: of a thread that `main` has joined nothing more
is seen. When `main` has returned, nothing more is seen at all; the database of the alarms is closed
and stays so, and every unit has ended and closed its connection. -/
theorem quiet_once_joined (before later : List ProgramAction) :
    let M := programMachine api (unitOwners upsUidProfileMap created ups) ups.length
    let p := Program.reached api created monitored conns ups stored before
    (∀ x, p.phase.Joined x → ∀ e ∈ M.trace p later, e.party ≠ x) ∧
      (p.phase = .returned → M.trace p later = [] ∧ (M.state p later).manager.dbOpen = false ∧
        ∀ t ∈ (M.state p later).units.fleet.units,
          t.phase = .stopped ∧ ∃ c, t.unit.tcpCtx = api.disconnect c) := by
  intro M p
  have hquiet : ∀ x, Ended p x →
      Ended (M.state p later) x ∧ ∀ e ∈ M.trace p later, e.party ≠ x := by
    intro x hx
    refine M.trace_invariant (fun q events => Ended q x ∧ ∀ e ∈ events, e.party ≠ x)
      ⟨hx, fun _ he => absurd he List.not_mem_nil⟩ (fun q events a h => ?_) later
    obtain ⟨hended, hnew⟩ := h.1.step api _ _ a
    exact ⟨hended, fun e he => (List.mem_append.mp he).elim (h.2 e) (hnew e)⟩
  have hp : Orderly p := orderly_reached api created monitored conns ups stored before
  have hlater : M.state p later =
      Program.reached api created monitored conns ups stored (before ++ later) :=
    (M.state_append _ before later).symm
  refine ⟨fun x hx => (hquiet x (hp.joined x hx)).2, fun hreturned => ?_⟩
  have hall : ∀ x, Ended (M.state p later) x := by
    intro x
    by_cases hx : x = .main
    · exact hx ▸ (hquiet .main hreturned).1
    · refine (hquiet x (hp.joined x ?_)).1
      rw [hreturned]
      exact hx
  refine ⟨List.eq_nil_iff_forall_not_mem.mpr fun e he => ?_, ?_, fun t ht => ?_⟩
  · refine (hquiet e.party (hp.joined _ ?_)).2 e he rfl
    rw [hreturned]
    exact e.party_ne_main
  · have horderly := orderly_reached api created monitored conns ups stored (before ++ later)
    rw [← hlater] at horderly
    exact horderly.closed (hall .main)
  · obtain ⟨k, hget⟩ := List.mem_iff_getElem?.mp ht
    have hstopped := (hall (.unit k) t hget).1
    obtain ⟨as, hfleet, -⟩ := exists_fleet_run api created monitored conns ups stored
      (before ++ later)
    rw [hlater, hfleet] at ht
    exact ⟨hstopped, disconnected_of_stopped api _ created conns ups as t ht hstopped⟩

end Run

end LoopCharger.Main
