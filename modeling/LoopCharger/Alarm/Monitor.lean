import LoopCharger.Alarm.Engine
import LoopCharger.DeviceMap.Pool

/-!
# The alarm monitor

The monitor thread of `lib/alarm/alarm_bridge.c`, which runs the engine over the pool once a
startup delay has passed. Other threads store into the pool while a pass is under way, so that a
step of the monitor is one row. The heartbeat and the sleeps are left out.

## Main definitions

* `AlarmCtx.evalRowAt`: the engine, one row of its table.
* `Monitor`, `monitorStep`: the thread and its steps.

## Main results

* `alarmEngineRun_eq_runRows`: rows evaluated one after the other are a pass of the engine.
* `monitorStep_cases`: what a step evaluates and emits.
-/

namespace LoopCharger.Alarm

open DeviceMap

/-! ### One row -/

/-- Evaluate one row of the table, on the answer of the read function. -/
def AlarmCtx.evalRowAt (ctx : AlarmCtx) (i : ℕ) (read : Option UInt16) :
    AlarmCtx × List AlarmEmission :=
  match ctx.table[i]?, ctx.states[i]? with
  | some entry, some state =>
    let r := evalRow entry state read
    (⟨ctx.table, ctx.states.set i r.1, by rw [List.length_set, ctx.length_states]⟩,
      r.2.map fun e => ⟨i, entry, e.1, e.2⟩)
  | _, _ => (ctx, [])

/-- A row whose register cannot be read is skipped. -/
theorem AlarmCtx.evalRowAt_none (ctx : AlarmCtx) (i : ℕ) : ctx.evalRowAt i none = (ctx, []) := by
  unfold evalRowAt
  split
  · rename_i entry state _ hstate
    obtain ⟨hi, rfl⟩ := List.getElem?_eq_some_iff.mp hstate
    simp [evalRow]
  · rfl

/-- A row whose register is read changes its own state only. -/
theorem AlarmCtx.evalRowAt_some {ctx : AlarmCtx} {i : ℕ} {entry : AlarmEntry} {state : AlarmState}
    (hentry : ctx.table[i]? = some entry) (hstate : ctx.states[i]? = some state) (v : UInt16) :
    (ctx.evalRowAt i (some v)).1.table = ctx.table ∧
      (ctx.evalRowAt i (some v)).1.states = ctx.states.set i (evalEntry entry state v).1 := by
  simp only [evalRowAt, hentry, hstate, evalRow, and_self]

/-- Evaluate `n` rows, from the `i`-th on. -/
def runRows (read : AlarmReads) : (i n : ℕ) → AlarmCtx → AlarmCtx × List AlarmEmission
  | _, 0, ctx => (ctx, [])
  | i, n + 1, ctx =>
    let answer := (ctx.table[i]?).bind fun entry => read i entry.deviceAddress
    let r := ctx.evalRowAt i answer
    let rest := runRows read (i + 1) n r.1
    (rest.1, r.2 ++ rest.2)

/-- The rows behind the first ones, whose states are `done`. -/
theorem runRows_eq_alarmEngineLoop (read : AlarmReads) (first : List AlarmEntry)
    (done : List AlarmState) (hdone : done.length = first.length) (table : List AlarmEntry)
    (states : List AlarmState) (h : states.length = table.length) :
    let ctx : AlarmCtx := ⟨first ++ table, done ++ states, by simp [hdone, h]⟩
    let r := alarmEngineLoop read first.length table states
    (runRows read first.length table.length ctx).1.table = first ++ table ∧
      (runRows read first.length table.length ctx).1.states = done ++ r.1 ∧
      (runRows read first.length table.length ctx).2 = r.2 := by
  induction table generalizing first done states with
  | nil =>
    obtain rfl : states = [] := List.length_eq_zero_iff.mp h
    exact ⟨rfl, rfl, rfl⟩
  | cons entry table ih =>
    obtain ⟨state, states, rfl⟩ : ∃ s ss, states = s :: ss := by
      cases states with
      | nil => cases h
      | cons s ss => exact ⟨s, ss, rfl⟩
    intro ctx r
    let answer := read first.length entry.deviceAddress
    have hentry : ctx.table[first.length]? = some entry := by simp [ctx]
    have hstate : ctx.states[first.length]? = some state := by simp [ctx, ← hdone]
    have hrow : ctx.evalRowAt first.length answer =
        (⟨first ++ [entry] ++ table, done ++ [(evalRow entry state answer).1] ++ states, by
            simpa [hdone] using h⟩,
          (evalRow entry state answer).2.map fun e => ⟨first.length, entry, e.1, e.2⟩) := by
      simp only [AlarmCtx.evalRowAt, hentry, hstate]
      simp [ctx, ← hdone]
    have hnext := ih (first ++ [entry]) (done ++ [(evalRow entry state answer).1])
      (by simp [hdone]) states (by simpa using h)
    simp only [List.length_append, List.length_singleton] at hnext
    obtain ⟨htable, hstates, hevents⟩ := hnext
    simp only [List.length_cons, runRows, hentry, Option.bind_some]
    simp only [show read first.length entry.deviceAddress = answer from rfl, hrow, htable, hstates,
      hevents, r, alarmEngineLoop]
    simp [answer]

/-- **Rows evaluated one after the other are a pass of the engine**, whatever the answers are. -/
theorem alarmEngineRun_eq_runRows (ctx : AlarmCtx) (read : AlarmReads) :
    alarmEngineRun ctx read = runRows read 0 ctx.table.length ctx := by
  obtain ⟨table, states, h⟩ := ctx
  obtain ⟨htable, hstates, hevents⟩ := runRows_eq_alarmEngineLoop read [] [] rfl table states h
  simp only [List.nil_append, List.length_nil] at htable hstates hevents
  rcases hr : runRows read 0 table.length ⟨table, states, h⟩ with ⟨⟨table', states', h'⟩, events⟩
  rw [hr] at htable hstates hevents
  dsimp only at htable hstates hevents
  subst htable hstates hevents
  rfl

/-! ### The thread -/

/-- A registered context, with the profile that its read function is given. -/
structure AlarmBinding where
  ctx : AlarmCtx
  profile : DeviceMapProfile

/-- A row that is evaluated changes its own state, in its own context. -/
theorem exists_of_evalRowAt {ctxs : List AlarmBinding} {c i : ℕ} {b : AlarmBinding}
    {entry : AlarmEntry} {state : AlarmState} (hb : ctxs[c]? = some b)
    (hentry : b.ctx.table[i]? = some entry) (hstate : b.ctx.states[i]? = some state) (v : UInt16)
    {c' : ℕ} {b' : AlarmBinding}
    (hb' : (ctxs.set c { b with ctx := (b.ctx.evalRowAt i (some v)).1 })[c']? = some b') :
    ∃ b₀, ctxs[c']? = some b₀ ∧ b'.profile = b₀.profile ∧ b'.ctx.table = b₀.ctx.table ∧
      ∀ i' : ℕ, b'.ctx.states[i']? =
        if c = c' ∧ i = i' then some (evalEntry entry state v).1 else b₀.ctx.states[i']? := by
  obtain ⟨htable, hstates⟩ := AlarmCtx.evalRowAt_some hentry hstate v
  rw [List.getElem?_set] at hb'
  split_ifs at hb' with hc hlt
  · obtain rfl := hc
    obtain rfl := Option.some.inj hb'
    refine ⟨b, hb, rfl, htable, fun i' => ?_⟩
    have hlen : i < b.ctx.states.length := (List.getElem?_eq_some_iff.mp hstate).1
    rw [hstates, List.getElem?_set]
    by_cases hi : i = i'
    · rw [if_pos hi, if_pos (hi ▸ hlen), if_pos ⟨rfl, hi⟩]
    · rw [if_neg hi, if_neg fun hboth => hi hboth.2]
  · exact ⟨b', hb', rfl, rfl, fun i' => (if_neg fun hboth => hc hboth.1).symm⟩

/-- Silence before the first pass. -/
def ALARM_BRIDGE_STARTUP_DELAY_MS : UInt64 := 5000

/-- Where the thread stands between two steps. -/
inductive MonitorPhase
  /-- Before the clock is read for the first time. -/
  | starting
  /-- At the head of the loop. -/
  | waiting
  /-- In a pass, before the row `i` of the context `c`. -/
  | evaluating (c i : ℕ)
  | stopped

/-- The monitor thread; `running` is the flag that stops it. -/
structure Monitor where
  ctxs : List AlarmBinding
  running : Bool
  startMs : UInt64
  warming : Bool
  phase : MonitorPhase

inductive MonitorEvent
  /-- A row of the context `c` is evaluated: its register could be read. -/
  | evaluated (c : ℕ) (entry : AlarmEntry)
  /-- The context `c` calls the event function. -/
  | alarm (c : ℕ) (e : AlarmEmission)
  deriving DecidableEq

/-- One step of the thread, when the clock shows `nowMs`. -/
def monitorStep (m : Monitor) (nowMs : UInt64) (pool : Pool) : Monitor × List MonitorEvent :=
  match m.phase with
  | .starting => ({ m with startMs := nowMs, warming := true, phase := .waiting }, [])
  | .waiting =>
    if !m.running then ({ m with phase := .stopped }, [])
    else if m.warming ∧ ¬ nowMs - m.startMs ≥ ALARM_BRIDGE_STARTUP_DELAY_MS then (m, [])
    else ({ m with warming := false, phase := .evaluating 0 0 }, [])
  | .evaluating c i =>
    match m.ctxs[c]? with
    | none => ({ m with phase := .waiting }, [])
    | some b =>
      match b.ctx.table[i]? with
      | none => ({ m with phase := .evaluating (c + 1) 0 }, [])
      | some entry =>
        let read := poolReadByDeviceAddr pool b.profile entry.deviceAddress
        let r := b.ctx.evalRowAt i read
        ({ m with ctxs := m.ctxs.set c { b with ctx := r.1 }, phase := .evaluating c (i + 1) },
          (if read.isSome then [.evaluated c entry] else []) ++ r.2.map (.alarm c))
  | .stopped => (m, [])

/-- What a step evaluates and emits: nothing, without a change of any context, or what the row of
a context makes of the value of its register. -/
theorem monitorStep_cases (m : Monitor) (nowMs : UInt64) (pool : Pool) :
    ((monitorStep m nowMs pool).2 = [] ∧ (monitorStep m nowMs pool).1.ctxs = m.ctxs) ∨
      ∃ c b i entry state v, m.ctxs[c]? = some b ∧ b.ctx.table[i]? = some entry ∧
        b.ctx.states[i]? = some state ∧
        poolReadByDeviceAddr pool b.profile entry.deviceAddress = some v ∧
        (monitorStep m nowMs pool).1.ctxs =
          m.ctxs.set c { b with ctx := (b.ctx.evalRowAt i (some v)).1 } ∧
        (monitorStep m nowMs pool).2 =
          .evaluated c entry :: ((evalEntry entry state v).2.toList.map fun event =>
            .alarm c ⟨i, entry, v, event⟩) := by
  unfold monitorStep
  cases m.phase with
  | starting => exact .inl ⟨rfl, rfl⟩
  | stopped => exact .inl ⟨rfl, rfl⟩
  | waiting =>
    dsimp only
    split_ifs <;> exact .inl ⟨rfl, rfl⟩
  | evaluating c i =>
    dsimp only
    rcases hb : m.ctxs[c]? with _ | b
    · exact .inl ⟨rfl, rfl⟩
    dsimp only
    rcases hentry : b.ctx.table[i]? with _ | entry
    · exact .inl ⟨rfl, rfl⟩
    obtain ⟨state, hstate⟩ : ∃ state, b.ctx.states[i]? = some state := by
      have hi := (List.getElem?_eq_some_iff.mp hentry).1
      exact ⟨_, List.getElem?_eq_getElem (b.ctx.length_states ▸ hi)⟩
    dsimp only
    rcases hread : poolReadByDeviceAddr pool b.profile entry.deviceAddress with _ | v
    · obtain ⟨hc, rfl⟩ := List.getElem?_eq_some_iff.mp hb
      rw [AlarmCtx.evalRowAt_none]
      exact .inl ⟨rfl, List.set_getElem_self hc⟩
    · refine .inr ⟨c, b, i, entry, state, v, hb, hentry, hstate, hread, rfl, ?_⟩
      simp only [AlarmCtx.evalRowAt, hentry, hstate, evalRow, List.map_map]
      rfl

end LoopCharger.Alarm
