import Mathlib.Order.BooleanAlgebra.Set
import Mathlib.Data.Nat.SuccPred
import LoopCharger.Lib.Usage
import LoopCharger.Ups.Bridge

/-!
# Starting and stopping the modules

The threads and the queue mutexes of `start_ups_modules` and `stop_ups_modules` of
`src/ups_module.c`, and of the bridge of `src/ups_cmos_bridge.c` that they start and stop. Every
step that can fail is an outcome of the start, and `main` stops whatever the start has returned.

## Main definitions

* `Create`, `StartOutcomes`: how the steps of a start come out.
* `Modules`: the variables that hold the threads, and what has been created and destroyed.
* `startModules`, `stopUpsModules`: the start and the stop.

## Main results

* `startUnits_eq`: the loop is that of `startUpsModules`, with its status and its units.
* `UnitsUp.step`: what one round of the start loop keeps.
-/

namespace LoopCharger.Ups

open Lib DeviceMap

/-! ### The start and the stop -/

/-- A thread, by the call that creates it. -/
inductive ModuleThread
  /-- The thread of the unit of the `i`-th configuration. -/
  | unit (i : ℕ)
  | pubPoll
  | sub
  deriving DecidableEq, Repr

/-- What is created and destroyed. A thread is known by the contents of the variable that holds it,
which may be those of no thread. -/
inductive ModuleResource
  | thread (handle : Option ModuleThread)
  | queueLock (slot : ℕ)
  deriving DecidableEq, Repr

/-- The outcome of a `pthread_create`. A call that fails leaves anything in its variable. -/
inductive Create
  | created
  | failed (left : Option ModuleThread)
  deriving DecidableEq, Repr

def Create.succeeded : Create → Bool
  | .created => true
  | .failed _ => false

/-- The outcomes of the steps of a start. -/
structure StartOutcomes where
  /-- The `pthread_create` for the unit of the `i`-th configuration. -/
  unit : ℕ → Create
  cmosPubInit : Bool
  pubPoll : Create
  sub : Create

/-- The variables of the modules, and what has happened to their threads and mutexes. -/
structure Modules where
  upsUnitCount : ℕ
  unitThread : ℕ → Option ModuleThread
  pubPollThread : Option ModuleThread
  subThread : Option ModuleThread
  log : List (Usage ModuleResource)

/-- The variables before the start. -/
def Modules.init : Modules := ⟨0, fun _ => none, none, none, []⟩

/-- Something happens to a thread or a mutex. -/
def Modules.did (m : Modules) (us : List (Usage ModuleResource)) : Modules :=
  { m with log := m.log ++ us }

variable (map : UidProfileMap)

/-- Set up the unit of the `i`-th configuration in the next slot and create its thread. The slot is
given up when that fails. -/
def startUnit (create : Create) (i : ℕ) (m : Modules) : Modules :=
  let slot := m.upsUnitCount
  let m := m.did [.acquire (.queueLock slot)]
  match create with
  | .created =>
    { m.did [.acquire (.thread (some (.unit i)))] with
      upsUnitCount := slot + 1
      unitThread := Function.update m.unitThread slot (some (.unit i)) }
  | .failed left =>
    { m.did [.release (.queueLock slot)] with
      unitThread := Function.update m.unitThread slot left }

/-- The loop of `start_ups_modules`, from the `i`-th configuration on. -/
def startUnits (create : ℕ → Create) : ℕ → List ModuleConfig → ℤ → Modules → ℤ × Modules
  | _, [], status, m => (status, m)
  | i, cfg :: cfgs, status, m =>
    if !cfg.enabled then startUnits create (i + 1) cfgs status m
    else
      match upsFindProfileByUid map (.ofInt cfg.modbusUid) with
      | none => startUnits create (i + 1) cfgs (-1) m
      | some _ =>
        startUnits create (i + 1) cfgs (if (create i).succeeded then status else -1)
          (startUnit (create i) i m)

/-- Start the bridge: `0` on success, `-1` on failure. -/
def upsCmosBridgeStart (outcomes : StartOutcomes) (m : Modules) : ℤ × Modules :=
  if !outcomes.cmosPubInit then (-1, m)
  else
    match outcomes.pubPoll with
    | .failed left => (-1, { m with pubPollThread := left })
    | .created =>
      let m := { m.did [.acquire (.thread (some .pubPoll))] with pubPollThread := some .pubPoll }
      match outcomes.sub with
      | .failed left => (-1, { m.did [.release (.thread m.pubPollThread)] with subThread := left })
      | .created =>
        (0, { m.did [.acquire (.thread (some .sub))] with subThread := some .sub })

/-- Start the enabled units and the bridge: the status and what is started. -/
def startModules (outcomes : StartOutcomes) (ups : List ModuleConfig) : ℤ × Modules :=
  let r := startUnits map outcomes.unit 0 ups 0 .init
  let b := upsCmosBridgeStart outcomes r.2
  (if b.1 ≠ 0 then -1 else r.1, b.2)

/-- Stop the bridge: both of its threads are joined, whether it was started or not. -/
def upsCmosBridgeStop (m : Modules) : Modules :=
  m.did [.use (.thread m.subThread), .release (.thread m.subThread),
    .release (.thread m.pubPollThread)]

/-- Join the thread of a unit and destroy its queue. -/
def stopUnit (m : Modules) (slot : ℕ) : Modules :=
  m.did [.release (.thread (m.unitThread slot)), .release (.queueLock slot)]

/-- Stop the bridge and all units. -/
def stopUpsModules (m : Modules) : Modules :=
  { (List.range m.upsUnitCount).foldl stopUnit (upsCmosBridgeStop m) with upsUnitCount := 0 }

theorem upsUnitCount_startUnit (create : Create) (i : ℕ) (m : Modules) :
    (startUnit create i m).upsUnitCount =
      if create.succeeded then m.upsUnitCount + 1 else m.upsUnitCount := by
  cases create <;> rfl

/-- The threads of the units are those that `startUpsModules` starts, with the same status. -/
theorem startUnits_eq {γ : Type*} (create : ℕ → Create) (conns : ℕ → γ) (i : ℕ)
    (cfgs : List ModuleConfig) (status : ℤ) (m : Modules) (units : List (UnitThread γ))
    (h : m.upsUnitCount = units.length) :
    let r := startUnits map create i cfgs status m
    let s := startLoop map (fun i => (create i).succeeded) conns i cfgs status units
    r.1 = s.1 ∧ r.2.upsUnitCount = s.2.length := by
  induction cfgs generalizing i status m units with
  | nil => exact ⟨rfl, h⟩
  | cons cfg cfgs ih =>
    simp only [startUnits, startLoop]
    by_cases henabled : (!cfg.enabled) = true
    · simp only [if_pos henabled]
      exact ih _ _ _ _ h
    simp only [if_neg henabled]
    rcases upsFindProfileByUid map (.ofInt cfg.modbusUid) with _ | profile
    · exact ih _ _ _ _ h
    have hcount := upsUnitCount_startUnit (create i) i m
    by_cases hcreate : (create i).succeeded = true
    · simp only [if_pos hcreate] at hcount ⊢
      exact ih _ _ _ _ (by simp [hcount, h])
    · simp only [if_neg hcreate] at hcount ⊢
      exact ih _ _ _ _ (hcount.trans h)

/-! ### What the units hold -/

/-- The threads and the mutexes of the slots from `lo` on and below `hi`. -/
def unitResources (thread : ℕ → Option ModuleThread) (lo hi : ℕ) : Set ModuleResource :=
  {r | ∃ slot, lo ≤ slot ∧ slot < hi ∧ (r = .thread (thread slot) ∨ r = .queueLock slot)}

variable {thread : ℕ → Option ModuleThread} {lo hi slot : ℕ} {handle : Option ModuleThread}

theorem mem_unitResources_thread : .thread handle ∈ unitResources thread lo hi ↔
    ∃ slot, lo ≤ slot ∧ slot < hi ∧ thread slot = handle := by
  simp [unitResources, eq_comm]

theorem mem_unitResources_queueLock :
    .queueLock slot ∈ unitResources thread lo hi ↔ lo ≤ slot ∧ slot < hi := by
  simp [unitResources]

@[simp] theorem unitResources_self : unitResources thread lo lo = ∅ := by
  ext r
  simp only [unitResources, Set.mem_ofPred_eq, Set.mem_empty_iff_false, iff_false]
  rintro ⟨slot, hlo, hhi, -⟩
  omega

/-- One more slot is in use. -/
theorem unitResources_update :
    unitResources (Function.update thread hi handle) 0 (hi + 1) =
      insert (.thread handle) (insert (.queueLock hi) (unitResources thread 0 hi)) := by
  ext r
  simp only [unitResources, Set.mem_ofPred_eq, Set.mem_insert_iff]
  constructor
  · rintro ⟨slot, -, hslot, hr⟩
    rcases Nat.lt_succ_iff_lt_or_eq.mp hslot with hlt | rfl
    · rw [Function.update_of_ne hlt.ne] at hr
      exact .inr (.inr ⟨slot, Nat.zero_le _, hlt, hr⟩)
    · rw [Function.update_self] at hr
      exact hr.imp_right .inl
  · rintro (rfl | rfl | ⟨slot, -, hslot, hr⟩)
    · exact ⟨hi, Nat.zero_le _, Nat.lt_succ_self hi, .inl (by rw [Function.update_self])⟩
    · exact ⟨hi, Nat.zero_le _, Nat.lt_succ_self hi, .inr rfl⟩
    · exact ⟨slot, Nat.zero_le _, hslot.trans (Nat.lt_succ_self hi),
        by rwa [Function.update_of_ne hslot.ne]⟩

/-- A slot that is not in use may hold anything. -/
theorem unitResources_update_ge :
    unitResources (Function.update thread hi handle) 0 hi = unitResources thread 0 hi := by
  ext r
  simp only [unitResources, Set.mem_ofPred_eq]
  refine exists_congr fun slot => and_congr_right fun _ => and_congr_right fun hslot => ?_
  rw [Function.update_of_ne hslot.ne]

/-- The first slot is given up. -/
theorem unitResources_succ
    (hinj : ∀ slot, lo < slot → slot < hi → thread slot ≠ thread lo) :
    (unitResources thread lo hi \ {.thread (thread lo)}) \ {.queueLock lo} =
      unitResources thread (lo + 1) hi := by
  ext r
  simp only [unitResources, Set.mem_sdiff, Set.mem_ofPred_eq, Set.mem_singleton_iff]
  constructor
  · rintro ⟨⟨⟨slot, hge, hlt, hr⟩, hthread⟩, hqueue⟩
    refine ⟨slot, Nat.lt_of_le_of_ne hge ?_, hlt, hr⟩
    rintro rfl
    exact hr.elim hthread hqueue
  · rintro ⟨slot, hge, hlt, hr⟩
    refine ⟨⟨⟨slot, Nat.le_of_succ_le hge, hlt, hr⟩, ?_⟩, ?_⟩
    · rintro rfl
      rcases hr with hr | hr
      · exact hinj slot hge hlt (ModuleResource.thread.inj hr).symm
      · cases hr
    · rintro rfl
      rcases hr with hr | hr
      · cases hr
      · obtain rfl := ModuleResource.queueLock.inj hr
        omega

/-- A slot is no slot in use, and so its variable may be set. -/
theorem eqOn_update :
    Set.EqOn thread (Function.update thread hi handle) (Set.Iio hi) :=
  fun _ hslot => (Function.update_of_ne (Set.mem_Iio.mp hslot).ne _ _).symm

theorem injOn_update (h : Set.InjOn thread (Set.Iio hi)) (hne : ∀ slot < hi, thread slot ≠ handle) :
    Set.InjOn (Function.update thread hi handle) (Set.Iio (hi + 1)) := by
  rw [show Set.Iio (hi + 1) = insert hi (Set.Iio hi) from Order.Iio_succ_eq_insert hi,
    Set.injOn_insert (Set.notMem_Iio.mpr (Nat.le_refl hi))]
  refine ⟨h.congr eqOn_update, ?_⟩
  rintro ⟨slot, hslot, heq⟩
  rw [Function.update_self, ← eqOn_update hslot] at heq
  exact hne slot hslot heq

/-- The units before the `i`-th configuration are started: the threads in the slots in use are
those of different calls, and they are held with the mutexes of the slots and nothing else. -/
structure UnitsUp (i : ℕ) (m : Modules) : Prop where
  holding : Holding (unitResources m.unitThread 0 m.upsUnitCount) m.log
  distinct : Set.InjOn m.unitThread (Set.Iio m.upsUnitCount)
  created : ∀ s < m.upsUnitCount, ∃ j < i, m.unitThread s = some (.unit j)

variable {m : Modules} {i : ℕ}

theorem UnitsUp.mono (h : UnitsUp i m) : UnitsUp (i + 1) m :=
  ⟨h.holding, h.distinct, fun s hs => by
    obtain ⟨j, hj, hthread⟩ := h.created s hs
    exact ⟨j, hj.trans (Nat.lt_succ_self i), hthread⟩⟩

theorem UnitsUp.start : UnitsUp 0 .init :=
  ⟨by rw [show Modules.init.upsUnitCount = 0 from rfl, unitResources_self]; exact holding_nil,
    fun s hs => absurd hs (Nat.not_lt_zero s), fun s hs => absurd hs (Nat.not_lt_zero s)⟩

theorem UnitsUp.ne_unit (h : UnitsUp i m) :
    ∀ s < m.upsUnitCount, m.unitThread s ≠ some (.unit i) := by
  intro s hs heq
  obtain ⟨j, hj, hthread⟩ := h.created s hs
  rw [heq, Option.some.injEq, ModuleThread.unit.injEq] at hthread
  exact hj.ne hthread.symm

/-- **One round of the start loop.** A unit whose thread is created takes the next slot; one whose
thread is not gives the slot back, with its mutex destroyed. -/
theorem UnitsUp.step (h : UnitsUp i m) (create : Create) :
    UnitsUp (i + 1) (startUnit create i m) := by
  have hslot : .queueLock m.upsUnitCount ∉ unitResources m.unitThread 0 m.upsUnitCount := by
    simp [mem_unitResources_queueLock]
  have hlock := h.holding.acquire hslot
  cases create with
  | created =>
    have hnew : .thread (some (.unit i)) ∉ insert (.queueLock m.upsUnitCount)
        (unitResources m.unitThread 0 m.upsUnitCount) := by
      rw [Set.mem_insert_iff, not_or, mem_unitResources_thread]
      refine ⟨fun heq => ModuleResource.noConfusion heq, ?_⟩
      rintro ⟨slot, -, hslot, heq⟩
      exact h.ne_unit slot hslot heq
    refine ⟨?_, injOn_update h.distinct h.ne_unit, fun s hs => ?_⟩
    · simp only [startUnit, Modules.did, unitResources_update]
      exact hlock.acquire hnew
    · rcases Nat.lt_succ_iff_lt_or_eq.mp hs with hlt | rfl
      · obtain ⟨j, hj, hthread⟩ := h.mono.created s hlt
        exact ⟨j, hj, (eqOn_update hlt).symm.trans hthread⟩
      · exact ⟨i, Nat.lt_succ_self i, Function.update_self ..⟩
  | failed left =>
    have hback := hlock.release (Set.mem_insert _ _)
    rw [Set.insert_sdiff_self_of_notMem hslot] at hback
    refine ⟨?_, h.distinct.congr eqOn_update, fun s hs => ?_⟩
    · simp only [startUnit, Modules.did, unitResources_update_ge]
      exact hback
    · obtain ⟨j, hj, hthread⟩ := h.mono.created s hs
      exact ⟨j, hj, (eqOn_update hs).symm.trans hthread⟩

theorem UnitsUp.loop (h : UnitsUp i m) (create : ℕ → Create) (cfgs : List ModuleConfig)
    (status : ℤ) : UnitsUp (i + cfgs.length) (startUnits map create i cfgs status m).2 := by
  induction cfgs generalizing i status m with
  | nil => exact h
  | cons cfg cfgs ih =>
    have hlen : i + (cfg :: cfgs).length = i + 1 + cfgs.length := by
      rw [List.length_cons, Nat.add_right_comm, Nat.add_assoc]
    rw [hlen]
    simp only [startUnits]
    by_cases henabled : (!cfg.enabled) = true
    · rw [if_pos henabled]
      exact ih h.mono _
    rw [if_neg henabled]
    rcases upsFindProfileByUid map (.ofInt cfg.modbusUid) with _ | profile
    · exact ih h.mono _
    · exact ih (h.step _) _

/-! ### The stop -/

theorem log_foldl_stopUnit (slots : List ℕ) (m : Modules) :
    (slots.foldl stopUnit m).unitThread = m.unitThread ∧
      ∃ us, (slots.foldl stopUnit m).log = m.log ++ us := by
  induction slots generalizing m with
  | nil => exact ⟨rfl, [], (List.append_nil _).symm⟩
  | cons slot slots ih =>
    obtain ⟨hthread, us, hus⟩ := ih (stopUnit m slot)
    exact ⟨hthread, _ ++ us, by rw [List.foldl_cons, hus, ← List.append_assoc]; rfl⟩

/-- The loop of the stop joins the threads of all units and destroys their mutexes. -/
theorem holding_foldl_stopUnit (n : ℕ) (m : Modules)
    (hinj : Set.InjOn m.unitThread (Set.Iio (lo + n)))
    (h : Holding (unitResources m.unitThread lo (lo + n)) m.log) :
    Holding ∅ ((List.range' lo n).foldl stopUnit m).log := by
  induction n generalizing lo m with
  | zero => simpa using h
  | succ n ih =>
    have hend : lo + 1 + n = lo + (n + 1) := by omega
    have hthread : .thread (m.unitThread lo) ∈ unitResources m.unitThread lo (lo + (n + 1)) :=
      mem_unitResources_thread.mpr ⟨lo, Nat.le_refl _, by omega, rfl⟩
    have hlock : .queueLock lo ∈ unitResources m.unitThread lo (lo + (n + 1)) \
        {.thread (m.unitThread lo)} :=
      ⟨mem_unitResources_queueLock.mpr ⟨Nat.le_refl _, by omega⟩, by simp⟩
    have hstop := (h.release hthread).release hlock
    rw [unitResources_succ fun s hs hs' heq => hs.ne' (hinj hs' (hs.trans hs') heq),
      List.append_assoc] at hstop
    rw [List.range'_succ, List.foldl_cons]
    refine ih (stopUnit m lo) ?_ ?_
    · rw [hend]
      exact hinj
    · rw [hend]
      exact hstop

/-- The threads of the bridge are none of the units'. -/
theorem UnitsUp.not_mem (h : UnitsUp i m) (hne : ∀ j, handle ≠ some (.unit j)) :
    .thread handle ∉ unitResources m.unitThread 0 m.upsUnitCount := by
  rw [mem_unitResources_thread]
  rintro ⟨slot, -, hslot, rfl⟩
  obtain ⟨j, -, hthread⟩ := h.created slot hslot
  exact hne j hthread

/-- A bridge that was started is stopped, and the units hold what they held. -/
theorem UnitsUp.bridge (h : UnitsUp i m) {outcomes : StartOutcomes}
    (hinit : outcomes.cmosPubInit = true) (hpoll : outcomes.pubPoll = .created)
    (hsub : outcomes.sub = .created) :
    let started := (upsCmosBridgeStart outcomes m).2
    started.unitThread = m.unitThread ∧ started.upsUnitCount = m.upsUnitCount ∧
      Holding (unitResources m.unitThread 0 m.upsUnitCount) (upsCmosBridgeStop started).log := by
  simp only [upsCmosBridgeStart, hinit, hpoll, hsub, Bool.not_true, Bool.false_eq_true, if_false]
  refine ⟨rfl, rfl, ?_⟩
  have hpollNew : .thread (some .pubPoll) ∉ unitResources m.unitThread 0 m.upsUnitCount :=
    h.not_mem (by simp)
  have hsubNew : .thread (some .sub) ∉ insert (.thread (some .pubPoll))
      (unitResources m.unitThread 0 m.upsUnitCount) := by
    rw [Set.mem_insert_iff, not_or]
    exact ⟨by simp, h.not_mem (by simp)⟩
  have hstarted := (h.holding.acquire hpollNew).acquire hsubNew
  have hstopped := ((hstarted.use (Set.mem_insert _ _)).release (Set.mem_insert _ _))
  rw [Set.insert_sdiff_self_of_notMem hsubNew] at hstopped
  have hall := hstopped.release (Set.mem_insert _ _)
  rw [Set.insert_sdiff_self_of_notMem hpollNew] at hall
  simpa only [upsCmosBridgeStop, Modules.did, List.append_assoc, List.cons_append,
    List.nil_append] using hall

/-- A bridge whose start has failed is stopped all the same: the stop cancels a thread that was
never created, or joins one that the start has joined. -/
theorem UnitsUp.not_bridge (h : UnitsUp i m) (hsub₀ : m.subThread = none)
    {outcomes : StartOutcomes} (hfail : ¬ (outcomes.cmosPubInit = true ∧
      outcomes.pubPoll = .created ∧ outcomes.sub = .created)) :
    ¬ Respects (upsCmosBridgeStop (upsCmosBridgeStart outcomes m).2).log := by
  have hnone : ¬ Respects (m.log ++ [.use (.thread none)]) :=
    h.holding.not_respects_use (h.not_mem (by simp))
  rcases hinit : outcomes.cmosPubInit
  · simp only [upsCmosBridgeStart, hinit, Bool.not_false, if_true, upsCmosBridgeStop, Modules.did,
      hsub₀]
    rw [List.append_cons]
    exact fun hall => hnone hall.of_append
  rcases hpoll : outcomes.pubPoll with _ | left
  · rcases hsub : outcomes.sub with _ | left
    · exact absurd ⟨hinit, hpoll, hsub⟩ hfail
    · have hjoined : held (.thread (some .pubPoll)) (m.log ++ [.acquire (.thread (some .pubPoll)),
          .release (.thread (some .pubPoll)), .use (.thread left), .release (.thread left)]) =
          false := by
        by_cases hleft : left = some .pubPoll <;> simp [Usage.after, hleft]
      have hbad := not_respects_release hjoined
      simpa only [upsCmosBridgeStart, hinit, hpoll, hsub, Bool.not_true, Bool.false_eq_true,
        if_false, upsCmosBridgeStop, Modules.did, List.append_assoc, List.cons_append,
        List.nil_append] using hbad
  · simp only [upsCmosBridgeStart, hinit, hpoll, Bool.not_true, Bool.false_eq_true, if_false,
      upsCmosBridgeStop, Modules.did, hsub₀]
    rw [List.append_cons]
    exact fun hall => hnone hall.of_append

/-! ### Every start and its stop -/

/-- What the start leaves of the variables of the bridge. -/
theorem subThread_startUnits (create : ℕ → Create) (i : ℕ) (cfgs : List ModuleConfig) (status : ℤ)
    (m : Modules) : (startUnits map create i cfgs status m).2.subThread = m.subThread := by
  induction cfgs generalizing i status m with
  | nil => rfl
  | cons cfg cfgs ih =>
    simp only [startUnits]
    by_cases henabled : (!cfg.enabled) = true
    · rw [if_pos henabled]
      exact ih _ _ _
    rw [if_neg henabled]
    rcases upsFindProfileByUid map (.ofInt cfg.modbusUid) with _ | profile
    · exact ih _ _ _
    · refine (ih _ _ _).trans ?_
      cases create i <;> rfl

/-- **Stopping what was started.** For every list of configurations and every outcome of the steps
of the start: the stop that follows cancels and joins only threads that were created and are not yet
joined, joins all of them and destroys the mutex of every queue once, if and only if the bridge was
started. -/
theorem stop_respects_iff (outcomes : StartOutcomes) (ups : List ModuleConfig) :
    let log := (stopUpsModules (startModules map outcomes ups).2).log
    (Respects log ∧ ∀ r, held r log = false) ↔
      outcomes.cmosPubInit = true ∧ outcomes.pubPoll = .created ∧ outcomes.sub = .created := by
  intro log
  have hup := UnitsUp.start.loop map outcomes.unit ups 0
  constructor
  · rintro ⟨hlog, -⟩
    by_contra hfail
    obtain ⟨-, us, hus⟩ := log_foldl_stopUnit
      (List.range (startModules map outcomes ups).2.upsUnitCount)
      (upsCmosBridgeStop (startModules map outcomes ups).2)
    refine hup.not_bridge (subThread_startUnits map _ _ _ _ _) hfail ?_
    have hall : Respects
        ((upsCmosBridgeStop (startModules map outcomes ups).2).log ++ us) := hus ▸ hlog
    exact hall.of_append
  · rintro ⟨hinit, hpoll, hsub⟩
    obtain ⟨hthread, hcount, hholding⟩ := hup.bridge hinit hpoll hsub
    have hthread' : (upsCmosBridgeStop (startModules map outcomes ups).2).unitThread =
        (startUnits map outcomes.unit 0 ups 0 .init).2.unitThread := hthread
    have hcount' : (startModules map outcomes ups).2.upsUnitCount =
        (startUnits map outcomes.unit 0 ups 0 .init).2.upsUnitCount := hcount
    have hall : Holding ∅ log := by
      simp only [log, stopUpsModules, List.range_eq_range', hcount']
      refine holding_foldl_stopUnit _ _ ?_ ?_
      · rw [Nat.zero_add, hthread']
        exact hup.distinct
      · rw [Nat.zero_add, hthread']
        exact hholding
    exact ⟨hall.1, fun r => Bool.eq_false_of_not_eq_true fun hheld => (hall.2 r).mp hheld⟩

/-- The publisher cannot reach its master: the stop cancels a thread that was never created. -/
theorem not_respects_pubInitFailed :
    let outcomes : StartOutcomes := ⟨fun _ => .created, false, .created, .created⟩
    let log := (stopUpsModules
      (startModules upsUidProfileMap outcomes [⟨true, 1, "192.168.1.10", 502⟩]).2).log
    log = [.acquire (.queueLock 0), .acquire (.thread (some (.unit 0))), .use (.thread none),
        .release (.thread none), .release (.thread none), .release (.thread (some (.unit 0))),
        .release (.queueLock 0)] ∧
      ¬ Respects log := by
  intro outcomes log
  have hlog : log = [.acquire (.queueLock 0), .acquire (.thread (some (.unit 0))),
      .use (.thread none), .release (.thread none), .release (.thread none),
      .release (.thread (some (.unit 0))), .release (.queueLock 0)] := by decide +kernel
  refine ⟨hlog, fun hall => ?_⟩
  rw [hlog] at hall
  have hlast : Respects (([.acquire (.queueLock 0), .acquire (.thread (some (.unit 0)))] ++
      [.use (ModuleResource.thread none)]) ++ [.release (.thread none), .release (.thread none),
      .release (.thread (some (.unit 0))), .release (.queueLock 0)]) := hall
  have huse := hlast.of_append
  exact Bool.false_ne_true (respects_concat.mp huse).2

end LoopCharger.Ups
