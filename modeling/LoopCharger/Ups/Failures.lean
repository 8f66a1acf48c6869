import LoopCharger.Ups.Thread

/-!
# The failed reads of a unit

`comm_fail_count` of `src/ups_module.c`, over the runs of the polling thread of a unit: with stop
requests and pushes to the queue between any two of its steps, and with any outcomes of the
connection attempts, the reads and the writes. What is seen of a run are the outcomes and what the
process callback returns; the counter is compared with the reads that are seen.

## Main definitions

* `CommEvent`, `commMachine`: what is seen of a thread, and its runs.
* `trailingFailures`: the failed reads at the end of a history, since the last connect.
* `Counted`: what the counter holds.

## Main results

* `Counted.threadStep`: one step keeps what the counter holds.
* `comm_fail_count_run`: the counter and the returns of the process callback in every run.
-/

namespace LoopCharger.Ups

open Lib Modbus DeviceMap

/-! ### Runs -/

/-- What is seen of a thread. -/
inductive CommEvent
  /-- The init callback has connected. -/
  | connected
  /-- An FC03 read of the scan, with its result. -/
  | read (rc : ℤ)
  /-- A queued write, with its result. -/
  | wrote (rc : ℤ)
  /-- The process callback returns. -/
  | returned (rc : ℤ)
  deriving DecidableEq

/-- What may happen next. -/
inductive CommAction
  /-- A step of the thread. -/
  | step
  /-- The unit is told to stop. -/
  | stop
  /-- A write is queued. -/
  | push (addr : UInt16) (values : ℕ → UInt16) (count : UInt16) (mode : UpsWriteMode)

variable {γ : Type*} (api : UnitApi γ)

/-- What is seen of one step of the thread. -/
def commEvents (t : UnitThread γ) : List CommEvent :=
  match t.phase with
  | .connecting =>
    if t.running ∧ (upsTcpInitCallback api t.cfg t.unit).1 = 0 then [.connected] else []
  | .writing cmd =>
    [.wrote (writeRegistersToDevice api.toModbusApi t.unit.tcpCtx cmd.addr cmd.value cmd.count
      cmd.mode).1]
  | .scanning _ [] => [.returned 0]
  | .scanning _ (seg :: _) =>
    .read (api.readHoldingRegisters t.unit.tcpCtx (segmentStart seg) (segmentCount seg)).1.rc ::
      match (threadStep api t).1.phase with
      | .failed => [.returned (-1)]
      | _ => []
  | _ => []

/-- The runs of one thread. -/
def commMachine : Machine (UnitThread γ) CommAction CommEvent where
  step t
    | .step => ((threadStep api t).1, commEvents api t)
    | .stop => ({ t with running := false }, [])
    | .push addr values count mode =>
      ({ t with unit := { t.unit with
        cmdQueue := (queuePush t.unit.cmdQueue addr values count mode).2 } }, [])

/-! ### The reads of a history -/

/-- The result of a read. -/
def CommEvent.readRc : CommEvent → Option ℤ
  | .read rc => some rc
  | _ => none

/-- The results of the reads since the last connect, the last one first. -/
def readsSinceConnect (events : List CommEvent) : List ℤ :=
  (events.reverse.takeWhile (· ≠ .connected)).filterMap CommEvent.readRc

/-- The number of failed reads at the end of a history, since the last connect. -/
def trailingFailures (events : List CommEvent) : ℕ :=
  ((readsSinceConnect events).takeWhile (· ≠ MB_TCP_CLIENT_OK)).length

/-- What is seen next, unless it is a connect, comes in front. -/
theorem readsSinceConnect_append {e : CommEvent} (h : e ≠ .connected) (events : List CommEvent) :
    readsSinceConnect (events ++ [e]) = e.readRc.toList ++ readsSinceConnect events := by
  have htake : (e :: events.reverse).takeWhile (· ≠ .connected) =
      e :: events.reverse.takeWhile (· ≠ .connected) :=
    List.takeWhile_cons_of_pos (decide_eq_true h)
  rw [readsSinceConnect, List.reverse_append, List.reverse_singleton, List.singleton_append, htake]
  cases hrc : e.readRc with
  | none => rw [List.filterMap_cons_none hrc]; rfl
  | some rc => rw [List.filterMap_cons_some hrc]; rfl

@[simp] theorem trailingFailures_connected (events : List CommEvent) :
    trailingFailures (events ++ [.connected]) = 0 := by
  simp [trailingFailures, readsSinceConnect]

theorem trailingFailures_read_ok (events : List CommEvent) :
    trailingFailures (events ++ [.read MB_TCP_CLIENT_OK]) = 0 := by
  rw [trailingFailures, readsSinceConnect_append CommEvent.noConfusion]
  rfl

theorem trailingFailures_read {rc : ℤ} (h : rc ≠ MB_TCP_CLIENT_OK) (events : List CommEvent) :
    trailingFailures (events ++ [.read rc]) = trailingFailures events + 1 := by
  rw [trailingFailures, readsSinceConnect_append CommEvent.noConfusion]
  simp [CommEvent.readRc, trailingFailures, h]

@[simp] theorem trailingFailures_wrote (events : List CommEvent) (rc : ℤ) :
    trailingFailures (events ++ [.wrote rc]) = trailingFailures events := by
  rw [trailingFailures, readsSinceConnect_append CommEvent.noConfusion]
  rfl

@[simp] theorem trailingFailures_returned (events : List CommEvent) (rc : ℤ) :
    trailingFailures (events ++ [.returned rc]) = trailingFailures events := by
  rw [trailingFailures, readsSinceConnect_append CommEvent.noConfusion]
  rfl

/-! ### The counter -/

/-- The thread is in its inner loop, and the process callback has not failed. -/
def Phase.counting : Phase → Bool
  | .connecting | .failed | .stopped => false
  | _ => true

/-- While it counts, the counter holds the number of the failed reads, which is below the
threshold. -/
def Counted (events : List CommEvent) (t : UnitThread γ) : Prop :=
  t.phase.counting = true → t.unit.commFailCount = trailingFailures events ∧
    trailingFailures events < UPS_COMM_FAIL_THRESHOLD

variable {api}

/-- A read that fails, with what it makes of the counter and of the callback. -/
theorem threadStep_read_failed {t : UnitThread γ} {buf : List UInt16}
    {seg : List DeviceRegisterMapping} {segs : List (List DeviceRegisterMapping)}
    (hphase : t.phase = .scanning buf (seg :: segs))
    (hrc : (api.readHoldingRegisters t.unit.tcpCtx (segmentStart seg) (segmentCount seg)).1.rc ≠
      MB_TCP_CLIENT_OK) :
    (threadStep api t).1.unit.commFailCount = t.unit.commFailCount + 1 ∧
      ((threadStep api t).1.phase = .failed ∧
          t.unit.commFailCount + 1 ≥ UPS_COMM_FAIL_THRESHOLD ∨
        (∃ buf', (threadStep api t).1.phase = .scanning buf' segs) ∧
          ¬ t.unit.commFailCount + 1 ≥ UPS_COMM_FAIL_THRESHOLD) := by
  simp only [threadStep, hphase, if_pos hrc, true_and]
  by_cases hfull : t.unit.commFailCount + 1 ≥ UPS_COMM_FAIL_THRESHOLD
  · exact .inl ⟨if_pos hfull, hfull⟩
  · exact .inr ⟨⟨_, if_neg hfull⟩, hfull⟩

/-- A read that succeeds. -/
theorem threadStep_read_ok {t : UnitThread γ} {buf : List UInt16}
    {seg : List DeviceRegisterMapping} {segs : List (List DeviceRegisterMapping)}
    (hphase : t.phase = .scanning buf (seg :: segs))
    (hrc : (api.readHoldingRegisters t.unit.tcpCtx (segmentStart seg) (segmentCount seg)).1.rc =
      MB_TCP_CLIENT_OK) :
    (threadStep api t).1.unit.commFailCount = 0 ∧
      ∃ stores buf', (threadStep api t).1.phase = .storing stores buf' segs := by
  simp only [threadStep, hphase, if_neg (not_not_intro hrc), true_and]
  exact ⟨_, _, rfl⟩

/-- What is seen of a read: its result, and the return behind the fifth failed one. -/
theorem commEvents_read {t : UnitThread γ} {buf : List UInt16}
    {seg : List DeviceRegisterMapping} {segs : List (List DeviceRegisterMapping)}
    (hphase : t.phase = .scanning buf (seg :: segs)) :
    let rc := (api.readHoldingRegisters t.unit.tcpCtx (segmentStart seg) (segmentCount seg)).1.rc
    commEvents api t =
      if rc ≠ MB_TCP_CLIENT_OK ∧ t.unit.commFailCount + 1 ≥ UPS_COMM_FAIL_THRESHOLD then
        [.read rc, .returned (-1)]
      else [.read rc] := by
  intro rc
  by_cases hrc : rc = MB_TCP_CLIENT_OK
  · obtain ⟨-, stores, buf', hnext⟩ := threadStep_read_ok hphase hrc
    rw [if_neg fun h => h.1 hrc]
    simp only [commEvents, hphase, hnext]
    rfl
  · obtain ⟨-, ⟨hnext, hfull⟩ | ⟨⟨buf', hnext⟩, hfull⟩⟩ := threadStep_read_failed hphase hrc
    · rw [if_pos ⟨hrc, hfull⟩]
      simp only [commEvents, hphase, hnext]
      rfl
    · rw [if_neg fun h => hfull h.2]
      simp only [commEvents, hphase, hnext]
      rfl

/-- Of the steps in the inner loop, only a read changes the counter, and only a read counts. -/
theorem threadStep_of_counting {t : UnitThread γ} (h : t.phase.counting = true)
    (hread : ∀ buf seg segs, t.phase ≠ .scanning buf (seg :: segs)) :
    (threadStep api t).1.unit.commFailCount = t.unit.commFailCount ∧
      ∀ events, trailingFailures (events ++ commEvents api t) = trailingFailures events := by
  cases hphase : t.phase with
  | connecting => simp [hphase, Phase.counting] at h
  | failed => simp [hphase, Phase.counting] at h
  | stopped => simp [hphase, Phase.counting] at h
  | polling => simp [threadStep, commEvents, hphase]
  | draining =>
    simp only [threadStep, commEvents, hphase, List.append_nil, implies_true, and_true]
    split <;> rfl
  | writing cmd => simp [threadStep, commEvents, hphase]
  | scanning buf segs =>
    cases segs with
    | nil => simp [threadStep, commEvents, hphase]
    | cons seg segs => exact absurd hphase (hread buf seg segs)
  | storing stores buf segs => cases stores <;> simp [threadStep, commEvents, hphase]

/-- A read keeps what the counter holds. -/
theorem counted_read {events : List CommEvent} {t : UnitThread γ} {buf : List UInt16}
    {seg : List DeviceRegisterMapping} {segs : List (List DeviceRegisterMapping)}
    (hphase : t.phase = .scanning buf (seg :: segs))
    (hcount : t.unit.commFailCount = trailingFailures events) :
    Counted (events ++ commEvents api t) (threadStep api t).1 := by
  rw [commEvents_read hphase]
  by_cases hrc : (api.readHoldingRegisters t.unit.tcpCtx (segmentStart seg)
      (segmentCount seg)).1.rc = MB_TCP_CLIENT_OK
  · rw [if_neg fun h => h.1 hrc, hrc]
    intro _
    rw [trailingFailures_read_ok]
    exact ⟨(threadStep_read_ok hphase hrc).1, by decide⟩
  · obtain ⟨hnext, ⟨hfailed, -⟩ | ⟨-, hfull⟩⟩ := threadStep_read_failed hphase hrc
    · intro hcounting
      rw [hfailed] at hcounting
      exact absurd hcounting Bool.false_ne_true
    · intro _
      rw [if_neg fun h => hfull h.2, hnext, trailingFailures_read hrc, ← hcount]
      exact ⟨rfl, Nat.not_le.mp hfull⟩

theorem commFailCount_upsTcpInitCallback {cfg : ModuleConfig} {u : UpsUnit γ}
    (h : (upsTcpInitCallback api cfg u).1 = 0) :
    (upsTcpInitCallback api cfg u).2.commFailCount = 0 := by
  unfold upsTcpInitCallback at h ⊢
  dsimp only at h ⊢
  split_ifs at h ⊢
  · have hfalse : (-1 : ℤ) = 0 := h
    exact absurd hfalse (by decide)
  · rfl

/-- Outside the inner loop the counter begins to count with a connect. -/
theorem counted_of_not_counting {events : List CommEvent} {t : UnitThread γ}
    (h : ¬ t.phase.counting = true) :
    Counted (events ++ commEvents api t) (threadStep api t).1 := by
  intro hcounting
  cases hphase : t.phase with
  | connecting =>
    by_cases hrunning : t.running = true
    · by_cases hrc : (upsTcpInitCallback api t.cfg t.unit).1 = 0
      · simp only [commEvents, threadStep, hphase, hrunning, hrc, and_self, if_true,
          trailingFailures_connected]
        exact ⟨commFailCount_upsTcpInitCallback hrc, by decide⟩
      · simp [threadStep, hphase, hrunning, hrc, Phase.counting] at hcounting
    · simp [threadStep, hphase, hrunning, Phase.counting] at hcounting
  | failed => simp [threadStep, hphase, Phase.counting] at hcounting
  | stopped => simp [threadStep, hphase, Phase.counting] at hcounting
  | polling => simp [hphase, Phase.counting] at h
  | draining => simp [hphase, Phase.counting] at h
  | writing cmd => simp [hphase, Phase.counting] at h
  | scanning buf segs => simp [hphase, Phase.counting] at h
  | storing stores buf segs => simp [hphase, Phase.counting] at h

/-- One step keeps what the counter holds. -/
theorem Counted.threadStep {events : List CommEvent} {t : UnitThread γ} (h : Counted events t) :
    Counted (events ++ commEvents api t) (Ups.threadStep api t).1 := by
  by_cases hcounting : t.phase.counting = true
  · obtain ⟨hcount, hlt⟩ := h hcounting
    by_cases hread : ∃ buf seg segs, t.phase = .scanning buf (seg :: segs)
    · obtain ⟨buf, seg, segs, hphase⟩ := hread
      exact counted_read hphase hcount
    · obtain ⟨hkept, hsame⟩ := threadStep_of_counting hcounting
        fun buf seg segs hphase => hread ⟨buf, seg, segs, hphase⟩
      intro _
      rw [hkept, hsame]
      exact ⟨hcount, hlt⟩
  · exact counted_of_not_counting hcounting

/-! ### Whole runs -/

/-- The other steps read nothing, and the callback does not fail in them. -/
theorem commEvents_of_no_read (api : UnitApi γ) {t : UnitThread γ}
    (hread : ∀ buf seg segs, t.phase ≠ .scanning buf (seg :: segs)) :
    (∀ rc, .read rc ∉ commEvents api t) ∧ .returned (-1) ∉ commEvents api t := by
  cases hphase : t.phase with
  | connecting =>
    simp only [commEvents, hphase]
    split_ifs <;> simp
  | scanning buf segs =>
    cases segs with
    | nil => simp [commEvents, hphase]
    | cons seg segs => exact absurd hphase (hread buf seg segs)
  | writing cmd => simp [commEvents, hphase]
  | polling => simp [commEvents, hphase]
  | draining => simp [commEvents, hphase]
  | storing stores buf segs => simp [commEvents, hphase]
  | failed => simp [commEvents, hphase]
  | stopped => simp [commEvents, hphase]

/-- The process callback fails in a step with a read that is the fifth failed one in a row, and in
no other. -/
theorem returned_iff {events : List CommEvent} {t : UnitThread γ} (h : Counted events t) :
    .returned (-1) ∈ commEvents api t ↔
      ∃ rc, .read rc ∈ commEvents api t ∧
        trailingFailures (events ++ [.read rc]) = UPS_COMM_FAIL_THRESHOLD := by
  by_cases hread : ∃ buf seg segs, t.phase = .scanning buf (seg :: segs)
  · obtain ⟨buf, seg, segs, hphase⟩ := hread
    obtain ⟨hcount, hlt⟩ := h (by rw [hphase]; rfl)
    rw [commEvents_read hphase]
    generalize (api.readHoldingRegisters t.unit.tcpCtx (segmentStart seg)
      (segmentCount seg)).1.rc = rc
    by_cases hrc : rc = MB_TCP_CLIENT_OK
    · rw [if_neg fun h => h.1 hrc]
      simp [hrc, trailingFailures_read_ok, UPS_COMM_FAIL_THRESHOLD]
    · have hnext := trailingFailures_read hrc events
      by_cases hfull : t.unit.commFailCount + 1 ≥ UPS_COMM_FAIL_THRESHOLD
      · rw [if_pos ⟨hrc, hfull⟩]
        refine iff_of_true (by simp) ⟨rc, List.mem_cons_self, ?_⟩
        omega
      · rw [if_neg fun h => hfull h.2]
        refine iff_of_false (by simp) ?_
        rintro ⟨rc', hmem, hfive⟩
        obtain rfl : rc' = rc := by simpa using hmem
        omega
  · obtain ⟨hnone, hreturned⟩ := commEvents_of_no_read api
      fun buf seg segs hphase => hread ⟨buf, seg, segs, hphase⟩
    exact iff_of_false hreturned fun ⟨rc, hmem, _⟩ => hnone rc hmem

/-- **The counter of failed reads**, in every run of a thread. The process callback returns -1 with
the fifth failed read in a row since the last connect, and with no other; while it has not, the
counter holds the number of the failed reads in a row; and no write changes it. -/
theorem comm_fail_count_run (api : UnitApi γ) (cfg : ModuleConfig) (profile : DeviceMapProfile)
    (conn : γ) (actions : List CommAction) :
    let M := commMachine api
    let start : UnitThread γ := ⟨cfg, ⟨profile, conn, 0, queueInit⟩, true, .connecting⟩
    let t := M.state start actions
    let events := M.trace start actions
    (.returned (-1) ∈ commEvents api t ↔
        ∃ rc, .read rc ∈ commEvents api t ∧ trailingFailures (events ++ [.read rc]) = 5) ∧
      (t.phase.counting = true →
        t.unit.commFailCount = trailingFailures events ∧ trailingFailures events ≤ 4) ∧
      ∀ cmd, t.phase = .writing cmd →
        (threadStep api t).1.unit.commFailCount = t.unit.commFailCount := by
  intro M start t events
  have hstart : Counted [] start := fun h => absurd h Bool.false_ne_true
  have hcounted : Counted events t := by
    refine M.trace_invariant (fun t events => Counted events t) hstart
      (fun t events a h => ?_) actions
    cases a with
    | step => exact h.threadStep
    | stop => exact (List.append_nil events).symm ▸ h
    | push addr values count mode => exact (List.append_nil events).symm ▸ h
  refine ⟨returned_iff hcounted, fun hphase => ?_, fun cmd hphase => ?_⟩
  · exact ⟨(hcounted hphase).1, Nat.le_of_lt_succ (hcounted hphase).2⟩
  · simp only [threadStep, hphase]

end LoopCharger.Ups
