import LoopCharger.Ups.Owners
import LoopCharger.Ups.Response
import LoopCharger.Ups.Telemetry

/-!
# When a configuration is shown as connected

The connection state that the poll thread of `src/ups_cmos_bridge.c` reads of a configuration,
against the thread of its unit in `src/ups_module.c`. The thread sets it to connected behind a
connect that succeeds, and to disconnected at the end of the error callback. The state is behind the
connection between the two, and it stays as it is when a unit is told to stop.

## Main definitions

* `unitOwners`: the configuration of each unit.
* `Telemetry.state`: the connection state of a configuration, with the assignment that is due.

## Main results

* `connection_state_iff`: what the connection state says, in every run.
-/

namespace LoopCharger.Ups

open Lib Cmos Modbus DeviceMap

variable {γ : Type*} {map : UidProfileMap} {api : UnitApi γ} {owners : List ℕ} {upsCount : ℕ}

/-! ### The configuration of a unit -/

/-- The configurations for which a unit is started, in the order of the units. -/
def unitOwners (map : UidProfileMap) (created : ℕ → Bool) (ups : List ModuleConfig) : List ℕ :=
  (ups.zipIdx.filter (Starts map created)).map Prod.snd

theorem nodup_unitOwners (map : UidProfileMap) (created : ℕ → Bool) (ups : List ModuleConfig) :
    (unitOwners map created ups).Nodup := by
  have hrange : (ups.zipIdx.map Prod.snd).Nodup := by
    rw [List.zipIdx_map_snd]
    exact List.nodup_range'
  exact hrange.sublist (List.filter_sublist.map Prod.snd)

/-- A unit that is started is the one of its configuration. -/
theorem exists_owner (map : UidProfileMap) (created : ℕ → Bool) (conns : ℕ → γ)
    (ups : List ModuleConfig) {k : ℕ} {t : UnitThread γ}
    (hget : (Fleet.start map created conns ups).units[k]? = some t) :
    ∃ i, (unitOwners map created ups)[k]? = some i ∧ ups[i]? = some t.cfg := by
  have hcfg := congrArg (·[k]?) (cfg_startUpsModules map created conns ups)
  have hget' : (startUpsModules map created conns ups).2[k]? = some t := hget
  simp only [List.getElem?_map, hget', Option.map_some, startedConfigs] at hcfg
  obtain ⟨⟨cfg, i⟩, hstarts, rfl⟩ := Option.map_eq_some_iff.mp hcfg.symm
  refine ⟨i, by rw [unitOwners, List.getElem?_map, hstarts, Option.map_some], ?_⟩
  have hmem := (List.mem_filter.mp (List.mem_of_getElem? hstarts)).1
  rwa [List.mem_zipIdx_iff_getElem?] at hmem

/-! ### What one step does -/

/-- The connection state of the configuration `i`, when the thread of its unit `k` has made the
assignment that is due. -/
def Telemetry.state (g : Telemetry γ) (k i : ℕ) : ConnectionState :=
  (g.due k).getD (g.connection i)

/-- What a step of another party leaves of a unit: all but its queue, unless it tells it to stop. -/
theorem exists_of_fleetStep_other {f : Fleet γ} {a : FleetAction} {k : ℕ}
    (ha : a.isThread k = false) {u : UnitThread γ}
    (hget : (fleetStep map api f a).1.units[k]? = some u) :
    ∃ t, f.units[k]? = some t ∧ u.phase = t.phase ∧
      (u.running = t.running ∨ a = .stop k ∧ u.running = false) := by
  cases a with
  | onWrite uid addr val =>
    rcases fleetStep_onWrite_cases map api f uid addr val with
      hrej | ⟨_, _, j, t, -, -, -, -, hj, -, hacc⟩
    · exact ⟨u, by rwa [hrej] at hget, rfl, .inl rfl⟩
    · rw [hacc] at hget
      by_cases hjk : j = k
      · subst hjk
        rw [List.getElem?_set_self (List.getElem?_eq_some_iff.mp hj).1] at hget
        obtain rfl := Option.some.inj hget
        exact ⟨t, hj, rfl, .inl rfl⟩
      · exact ⟨u, by rwa [List.getElem?_set_ne hjk] at hget, rfl, .inl rfl⟩
  | thread j =>
    have hjk : j ≠ k := by simpa [FleetAction.isThread] using ha
    rcases hj : f.units[j]? with _ | t
    · exact ⟨u, by simpa only [fleetStep, hj] using hget, rfl, .inl rfl⟩
    · exact ⟨u, by simpa only [fleetStep, hj, List.getElem?_set_ne hjk] using hget, rfl, .inl rfl⟩
  | stop j =>
    simp only [fleetStep, List.getElem?_modify] at hget
    obtain ⟨t, ht, rfl⟩ := Option.map_eq_some_iff.mp hget
    refine ⟨t, ht, ?_⟩
    split_ifs with hjk
    · exact ⟨rfl, .inr ⟨by rw [hjk], rfl⟩⟩
    · exact ⟨rfl, .inl rfl⟩

/-- **What a thread sets** after a step: whether it is connected, as long as it is not told to stop;
and nothing when that has not changed. -/
theorem dueAfter_threadStep (api : UnitApi γ) {t : UnitThread γ} (hrunning : t.running = true)
    (state : ConnectionState) (hstate : state = .connected ↔ t.phase.connected = true) :
    (dueAfter t.phase (threadStep api t).1.phase).getD state = .connected ↔
      (threadStep api t).1.phase.connected = true := by
  cases hphase : t.phase with
  | connecting =>
    rw [hphase] at hstate
    simp only [threadStep, hphase, if_pos hrunning]
    split_ifs
    · exact hstate
    · simp [dueAfter, Phase.connected]
  | polling =>
    rw [hphase] at hstate
    simp only [threadStep, hphase, if_pos hrunning]
    exact hstate
  | draining =>
    rw [hphase] at hstate
    simp only [threadStep, hphase]
    split <;> exact hstate
  | writing cmd =>
    rw [hphase] at hstate
    simp only [threadStep, hphase]
    exact hstate
  | scanning buf segs =>
    rw [hphase] at hstate
    cases segs with
    | nil =>
      simp only [threadStep, hphase]
      exact hstate
    | cons seg segs =>
      simp only [threadStep, hphase]
      split_ifs <;> exact hstate
  | storing stores buf segs =>
    rw [hphase] at hstate
    cases stores with
    | nil | cons s stores =>
      simp only [threadStep, hphase]
      exact hstate
  | failed =>
    simp only [threadStep, hphase]
    simp [dueAfter, Phase.connected]
  | stopped =>
    rw [hphase] at hstate
    simp only [threadStep, hphase]
    exact hstate

/-! ### Runs -/

/-- The units with the connection states of their configurations. -/
structure Shows (ups : List ModuleConfig) (owners : List ℕ) (g : Telemetry γ) : Prop where
  owner : ∀ (k : ℕ) t, g.fleet.units[k]? = some t →
    ∃ i, owners[k]? = some i ∧ ups[i]? = some t.cfg
  due : ∀ k state, g.due k = some state → k < owners.length
  state : ∀ (k i : ℕ) t, g.fleet.units[k]? = some t → owners[k]? = some i → t.running = true →
    (g.state k i = .connected ↔ t.phase.connected = true)
  other : ∀ i ∉ owners, g.connection i = .disconnected

variable {ups : List ModuleConfig} {g : Telemetry γ}

theorem Shows.start (map : UidProfileMap) (created : ℕ → Bool) (conns : ℕ → γ)
    (ups : List ModuleConfig) :
    Shows ups (unitOwners map created ups) (.start map created conns ups) := by
  refine ⟨fun k t hget => exists_owner map created conns ups hget,
    fun _ _ h => (Option.some_ne_none _ h.symm).elim, fun k i t hget _ _ => ?_, fun _ _ => rfl⟩
  rcases mem_startLoop map created conns 0 ups 0 [] (List.mem_of_getElem? hget) with
    hnil | ⟨cfg, profile, j, -, rfl⟩
  · cases hnil
  · exact iff_of_false (by simp [Telemetry.state, Telemetry.start]) (by simp [Phase.connected])

/-- Nothing changes but the poll thread. -/
theorem Shows.congr (h : Shows ups owners g) {g' : Telemetry γ} (hfleet : g'.fleet = g.fleet)
    (hconnection : g'.connection = g.connection) (hdue : g'.due = g.due) :
    Shows ups owners g' := by
  obtain ⟨fleet, connection, due, pub, poller, running⟩ := g'
  obtain rfl : fleet = g.fleet := hfleet
  obtain rfl : connection = g.connection := hconnection
  obtain rfl : due = g.due := hdue
  exact ⟨h.owner, h.due, h.state, h.other⟩

theorem pollStep_frame (upsCount : ℕ) (g : Telemetry γ) (arrived : Bool) (result : ℕ → ℤ) :
    (pollStep upsCount g arrived result).1.fleet = g.fleet ∧
      (pollStep upsCount g arrived result).1.connection = g.connection ∧
      (pollStep upsCount g arrived result).1.due = g.due := by
  unfold pollStep
  split
  · split_ifs <;> exact ⟨rfl, rfl, rfl⟩
  · exact ⟨rfl, rfl, rfl⟩
  · exact ⟨rfl, rfl, rfl⟩
  · split <;> exact ⟨rfl, rfl, rfl⟩
  · exact ⟨rfl, rfl, rfl⟩

/-- A step of the bridge, or of who stops a unit. -/
theorem Shows.other_step (h : Shows ups owners g) {a : FleetAction}
    (ha : ∀ k, a.isThread k = false) :
    Shows ups owners { g with fleet := (fleetStep map api g.fleet a).1 } := by
  refine ⟨fun k u hget => ?_, h.due, fun k i u hget hi hrunning => ?_, h.other⟩
  · obtain ⟨t, ht, hcfg⟩ := fleetStep_cfg map api g.fleet a hget
    rw [hcfg]
    exact h.owner k t ht
  · obtain ⟨t, ht, hphase, hstill⟩ := exists_of_fleetStep_other (ha k) hget
    rw [hphase]
    refine h.state k i t ht hi (hstill.elim (·.symm.trans hrunning) fun hstop => ?_)
    exact Bool.noConfusion (hrunning.symm.trans hstop.2)

/-- A step of the thread of a unit, or the assignment that it still has to make. -/
theorem Shows.thread (h : Shows ups owners g) (hnodup : owners.Nodup) (k : ℕ) :
    Shows ups owners (unitStep map api owners g k).1 := by
  cases hdue : g.due k with
  | some state =>
    simp only [unitStep, hdue]
    have hk := h.due k state hdue
    have hgetD : owners.getD k 0 = owners[k] := by
      rw [List.getD_eq_getElem?_getD, List.getElem?_eq_getElem hk, Option.getD_some]
    refine ⟨h.owner, fun j s hj => ?_, fun j i t hget hi hrunning => ?_, fun i hi => ?_⟩
    · rcases eq_or_ne j k with rfl | hjk
      · exact hk
      · exact h.due j s ((Function.update_of_ne hjk _ _).symm.trans hj)
    · have hstate := h.state j i t hget hi hrunning
      rw [← hstate]
      rcases eq_or_ne j k with rfl | hjk
      · obtain rfl := Option.some.inj ((List.getElem?_eq_getElem hk).symm.trans hi)
        simp only [Telemetry.state, hgetD, Function.update_self, hdue, Option.getD_none,
          Option.getD_some]
      · obtain ⟨hj, rfl⟩ := List.getElem?_eq_some_iff.mp hi
        have hik : owners[j] ≠ owners.getD k 0 := fun heq =>
          hjk (hnodup.getElem_inj_iff.mp (heq.trans hgetD))
        simp only [Telemetry.state, Function.update_of_ne hjk, Function.update_of_ne hik]
    · have hik : i ≠ owners.getD k 0 := fun heq =>
        hi (heq ▸ hgetD ▸ List.getElem_mem hk)
      exact (Function.update_of_ne hik _ _).trans (h.other i hi)
  | none =>
    rcases hget : g.fleet.units[k]? with _ | t
    · simpa only [unitStep, hdue, hget] using h
    simp only [unitStep, hdue, hget]
    have hstep := fleetStep_thread map api hget
    obtain ⟨i₀, hi₀, -⟩ := h.owner k t hget
    refine ⟨fun j u hu => ?_, fun j s hj => ?_, fun j i u hu hi hrunning => ?_, h.other⟩
    · obtain ⟨v, hv, hcfg⟩ := fleetStep_cfg map api g.fleet (.thread k) hu
      rw [hcfg]
      exact h.owner j v hv
    · rcases eq_or_ne j k with rfl | hjk
      · exact (List.getElem?_eq_some_iff.mp hi₀).1
      · exact h.due j s ((Function.update_of_ne hjk _ _).symm.trans hj)
    · rcases eq_or_ne j k with rfl | hjk
      · obtain rfl := Option.some.inj (hstep.symm.trans hu)
        rw [threadStep_running] at hrunning
        have hstate := h.state j i t hget hi hrunning
        rw [Telemetry.state, hdue, Option.getD_none] at hstate
        simpa only [Telemetry.state, Function.update_self] using
          dueAfter_threadStep api hrunning _ hstate
      · obtain ⟨v, hv, hphase, hstill⟩ := exists_of_fleetStep_other
          (a := .thread k) (by simpa [FleetAction.isThread] using Ne.symm hjk) hu
        have hsame : u.running = v.running := hstill.resolve_right fun hstop => by cases hstop.1
        have hstate := h.state j i v hv hi (hsame.symm.trans hrunning)
        simpa only [Telemetry.state, Function.update_of_ne hjk, hphase] using hstate

theorem Shows.step (h : Shows ups owners g) (hnodup : owners.Nodup) (a : TelemetryAction) :
    Shows ups owners (telemetryStep map api owners upsCount g a).1 := by
  cases a with
  | onWrite uid addr val => exact h.other_step fun _ => rfl
  | thread k => exact h.thread hnodup k
  | poll arrived result =>
    obtain ⟨hfleet, hconnection, hdue⟩ := pollStep_frame upsCount g arrived result
    exact h.congr hfleet hconnection hdue
  | stopBridge => exact h.congr rfl rfl rfl
  | stop k =>
    simp only [telemetryStep]
    split
    · exact h.other_step fun _ => rfl
    · exact h

/-- A step that is not the one that stops a unit leaves it running. -/
theorem running_of_fleetStep {f : Fleet γ} {a : FleetAction} {k : ℕ} (ha : a ≠ .stop k)
    {u : UnitThread γ} (hget : (fleetStep map api f a).1.units[k]? = some u) :
    ∃ t, f.units[k]? = some t ∧ u.running = t.running := by
  cases hthread : a.isThread k with
  | false =>
    obtain ⟨t, ht, -, hrunning⟩ := exists_of_fleetStep_other hthread hget
    exact ⟨t, ht, hrunning.resolve_right fun hstop => ha hstop.1⟩
  | true =>
    obtain rfl : a = .thread k := by
      cases a <;> simp [FleetAction.isThread] at hthread
      rw [hthread]
    obtain ⟨t, ht, -⟩ := fleetStep_cfg map api f _ hget
    obtain rfl := Option.some.inj ((fleetStep_thread map api ht).symm.trans hget)
    exact ⟨t, ht, threadStep_running api t⟩

/-- The units run until the poll thread has ended. -/
def Telemetry.Runs (g : Telemetry γ) : Prop :=
  g.poller ≠ .ended → ∀ (k : ℕ) t, g.fleet.units[k]? = some t → t.running = true

theorem Telemetry.Runs.start (map : UidProfileMap) (created : ℕ → Bool) (conns : ℕ → γ)
    (ups : List ModuleConfig) : (Telemetry.start map created conns ups).Runs := by
  intro _ k t hget
  rcases mem_startLoop map created conns 0 ups 0 [] (List.mem_of_getElem? hget) with
    hnil | ⟨cfg, profile, j, -, rfl⟩
  · cases hnil
  · rfl

theorem Telemetry.Runs.fleet (h : g.Runs) {a : FleetAction} (ha : ∀ k, a ≠ .stop k)
    (due : ℕ → Option ConnectionState) :
    Telemetry.Runs { g with fleet := (fleetStep map api g.fleet a).1, due := due } := by
  intro hpoller k u hget
  obtain ⟨t, ht, hrunning⟩ := running_of_fleetStep (ha k) hget
  rw [hrunning]
  exact h hpoller k t ht

theorem Telemetry.Runs.step (h : g.Runs) (a : TelemetryAction) :
    (telemetryStep map api owners upsCount g a).1.Runs := by
  cases a with
  | onWrite uid addr val => exact h.fleet (fun _ => FleetAction.noConfusion) g.due
  | thread k =>
    simp only [telemetryStep, unitStep]
    split
    · exact h
    split
    · exact h
    · exact h.fleet (fun _ => FleetAction.noConfusion) _
  | poll arrived result =>
    intro hpoller
    obtain ⟨hfleet, -, -⟩ := pollStep_frame upsCount g arrived result
    rw [telemetryStep, hfleet]
    refine h fun hended => hpoller ?_
    simp only [telemetryStep, pollStep, hended]
  | stopBridge => exact h
  | stop k =>
    simp only [telemetryStep]
    split
    · rename_i hended
      exact fun hpoller => absurd hended hpoller
    · exact h

section Run

variable {σ : Type*} (N : Network σ) (stack : ℕ → ResponseBuffer) (created : ℕ → Bool)
  (conns : ℕ → Conn σ × ℕ) (ups : List ModuleConfig)

/-- The units deliver what they have accepted, beside the poll thread as well. -/
theorem allDeliver_telemetryStep {g : Telemetry (Client (σ × List Bytes) × ℕ)}
    {events : List TelemetryEvent} (h : AllDeliver map g.fleet (unitEvents events))
    {g' : Telemetry (Client (σ × List Bytes) × ℕ)} {new : List TelemetryEvent}
    (hstep : TelemetryStep map (clientUnitApi N.logged stack) upsCount g g' new) :
    AllDeliver map g'.fleet (unitEvents (events ++ new)) := by
  cases hstep with
  | fleet a due =>
    rw [unitEvents_append, unitEvents_map_fleet]
    exact h.step N stack a
  | silent => rwa [List.append_nil]
  | accepted arrived => rwa [unitEvents_append, unitEvents_map_pub, List.append_nil]
  | looked it items hpoller =>
    have hnone : unitEvents [.looked it.cfg (g.connection it.cfg)] = [] := rfl
    rwa [unitEvents_append, hnone, List.append_nil]
  | published state it items line result hpoller hline =>
    rwa [unitEvents_append, unitEvents_map_pub, List.append_nil]

/-- **What the connection state says.** In every state of every run of the units with the poll
thread, each unit belongs to one configuration, and it runs as long as the poll thread has not
ended. As long as it runs, the connection state of the configuration, with the assignment that its
thread has still to make, is connected exactly when the thread has connected and not yet
disconnected behind a failure, and when it is connected, the client of the unit is. Every
configuration without a unit is disconnected. -/
theorem connection_state_iff (actions : List TelemetryAction) :
    let owners := unitOwners upsUidProfileMap created ups
    let g := Telemetry.reached (clientUnitApi N.logged stack) owners created
      (fun i => newClient (conns i)) ups actions
    (∀ (k : ℕ) (t : UnitThread (Client (σ × List Bytes) × ℕ)), g.fleet.units[k]? = some t →
      ∃ i, owners[k]? = some i ∧ ups[i]? = some t.cfg ∧
        (g.poller ≠ .ended → t.running = true) ∧ (t.running = true →
        (g.state k i = .connected ↔ t.phase.connected = true) ∧
          (g.state k i = .connected → t.Online))) ∧
      ∀ i ∉ owners, g.connection i = .disconnected := by
  intro owners g
  let M := telemetryMachine upsUidProfileMap (clientUnitApi N.logged stack) owners ups.length
  have hshows : Shows ups owners g := M.invariant (Shows ups owners)
    (.start upsUidProfileMap created _ ups)
    (fun g a h => h.step (nodup_unitOwners upsUidProfileMap created ups) a) actions
  have hdeliver : AllDeliver upsUidProfileMap g.fleet (unitEvents (M.trace _ actions)) :=
    M.trace_invariant (fun g events => AllDeliver upsUidProfileMap g.fleet (unitEvents events))
      (allDeliver_start upsUidProfileMap created conns ups)
      (fun g events a h => allDeliver_telemetryStep N stack h
        (telemetryStep_cases upsUidProfileMap _ owners ups.length g a)) actions
  have hruns : g.Runs := M.invariant Telemetry.Runs (.start upsUidProfileMap created _ ups)
    (fun g a h => h.step a) actions
  refine ⟨fun k t hget => ?_, hshows.other⟩
  obtain ⟨i, hi, hcfg⟩ := hshows.owner k t hget
  refine ⟨i, hi, hcfg, fun hpoller => hruns hpoller k t hget, fun hrunning => ?_⟩
  have hstate := hshows.state k i t hget hi hrunning
  exact ⟨hstate, fun hconnected => (hdeliver k t hget).online (hstate.mp hconnected)⟩

end Run

end LoopCharger.Ups
