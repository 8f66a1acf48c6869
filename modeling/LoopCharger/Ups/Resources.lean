import LoopCharger.Modbus.Resources
import LoopCharger.Ups.Bridge

/-!
# The resources of a polling thread

The descriptor and the mutex in the context of a unit, over the runs of its thread: they are
acquired by the connection attempts, and released by the error callback and at the end of the
thread. The thread starts from a context filled with zero bytes.

## Main definitions

* `resourceApi`: the client, with what its context acquires and releases.
* `threadMachine`: one thread, with its stop request and the writes queued for it.
* `WellUsed`: only what was opened last is closed, once, and only a mutex in use is destroyed.
* `ExitsConnected`: the thread ends from its inner loop only.

## Main results

* `threadStep_loop`: what one step does to the loops of the thread.
* `Tidy.step`: a thread that so far ended from its inner loop only keeps its context in order.
-/

namespace LoopCharger.Ups

open Lib Modbus DeviceMap

/-! ### The loops of a thread -/

section Loops

variable {γ β : Type*}

/-- The calls of a connection leave `f` as it is. -/
structure Keeps (api : ModbusApi γ) (f : γ → β) : Prop where
  read : ∀ c addr qty, f (api.readHoldingRegisters c addr qty).2 = f c
  writeSingle : ∀ c addr value, f (api.writeSingleRegister c addr value).2 = f c
  writeMultiple : ∀ c addr qty data, f (api.writeMultipleRegisters c addr qty data).2 = f c

theorem Keeps.write {api : ModbusApi γ} {f : γ → β} (h : Keeps api f) (c : γ) (addr : UInt16)
    (values : ℕ → UInt16) (count : UInt16) (mode : UpsWriteMode) :
    f (writeRegistersToDevice api c addr values count mode).2 = f c := by
  cases mode with
  | fc06 =>
    simp only [writeRegistersToDevice]
    split_ifs
    · rfl
    · exact h.writeSingle _ _ _
  | fc16 => exact h.writeMultiple _ _ _ _
  | auto =>
    simp only [writeRegistersToDevice]
    split_ifs
    · exact h.writeSingle _ _ _
    · exact h.writeMultiple _ _ _ _

variable (api : UnitApi γ) (f : γ → β)

/-- Where a step stands in the two loops of a thread, and what it does to the connection. -/
inductive LoopStep (t t' : UnitThread γ) : Prop
  | connected (h : t.phase = .connecting) (hrunning : t.running = true)
      (hrc : (api.connect t.cfg.client t.unit.tcpCtx).1 = 0) (h' : t'.phase = .polling)
      (hctx : t'.unit.tcpCtx = (api.connect t.cfg.client t.unit.tcpCtx).2)
  | refused (h : t.phase = .connecting) (hrunning : t.running = true)
      (hrc : (api.connect t.cfg.client t.unit.tcpCtx).1 ≠ 0) (h' : t'.phase = .connecting)
      (hctx : t'.unit.tcpCtx = (api.connect t.cfg.client t.unit.tcpCtx).2)
  | ended (h : t.phase = .connecting) (hrunning : t.running = false) (h' : t'.phase = .stopped)
      (hctx : t'.unit.tcpCtx = api.disconnect t.unit.tcpCtx)
  | failed (h : t.phase = .failed) (h' : t'.phase = .connecting)
      (hctx : t'.unit.tcpCtx = api.disconnect t.unit.tcpCtx)
  | left (h : t.phase = .polling) (hrunning : t.running = false) (h' : t'.phase = .connecting)
      (hctx : t'.unit.tcpCtx = t.unit.tcpCtx)
  | inside (h : t.phase.connected = true) (h' : t'.phase.connected = true)
      (hctx : f t'.unit.tcpCtx = f t.unit.tcpCtx)
  | stopped (h : t.phase = .stopped) (h' : t' = t)

variable {api f}

theorem threadStep_loop (hf : Keeps api.toModbusApi f) (t : UnitThread γ) :
    LoopStep api f t (threadStep api t).1 := by
  cases hphase : t.phase with
  | connecting =>
    by_cases hrunning : t.running = true
    · simp only [threadStep, hphase, hrunning, if_true, upsTcpInitCallback]
      by_cases hrc : (api.connect t.cfg.client t.unit.tcpCtx).1 = 0
      · refine .connected hphase hrunning hrc ?_ ?_ <;>
          simp only [hrc, ne_eq, not_true_eq_false, if_false]
      · simp only [hrc, ne_eq, not_false_eq_true, if_true]
        exact .refused hphase hrunning hrc rfl rfl
    · simp only [threadStep, hphase, hrunning]
      exact .ended hphase (Bool.eq_false_of_not_eq_true hrunning) rfl rfl
  | polling =>
    simp only [threadStep, hphase]
    by_cases hrunning : t.running = true
    · simp only [hrunning, if_true]
      exact .inside (by rw [hphase]; rfl) rfl rfl
    · simp only [hrunning]
      exact .left hphase (Bool.eq_false_of_not_eq_true hrunning) rfl rfl
  | draining =>
    simp only [threadStep, hphase]
    split <;> exact .inside (by rw [hphase]; rfl) rfl rfl
  | writing cmd =>
    simp only [threadStep, hphase]
    exact .inside (by rw [hphase]; rfl) rfl (hf.write _ _ _ _ _)
  | scanning buf segs =>
    cases segs with
    | nil =>
      simp only [threadStep, hphase]
      exact .inside (by rw [hphase]; rfl) rfl rfl
    | cons seg segs =>
      simp only [threadStep, hphase]
      split_ifs <;> exact .inside (by rw [hphase]; rfl) rfl (hf.read _ _ _)
  | storing stores buf segs =>
    cases stores with
    | nil =>
      simp only [threadStep, hphase]
      exact .inside (by rw [hphase]; rfl) rfl rfl
    | cons s stores =>
      simp only [threadStep, hphase]
      exact .inside (by rw [hphase]; rfl) rfl rfl
  | failed =>
    simp only [threadStep, hphase]
    exact .failed hphase rfl rfl
  | stopped =>
    simp only [threadStep, hphase]
    exact .stopped hphase rfl

end Loops

/-! ### What the context acquires and releases -/

section Usage

variable {σ : Type*}

/-- A client with the calls made so far and what its context has acquired and released. -/
abbrev AccountedClient (σ : Type*) := (Client σ × ℕ) × List (Usage CtxResource)

/-- The calls of the client. Connecting and disconnecting are accounted for. -/
def resourceApi (H : Host σ) (stack : ℕ → ResponseBuffer) : UnitApi (AccountedClient σ) :=
  let client := clientUnitApi H.network stack
  { readHoldingRegisters := fun c addr qty =>
      let r := client.readHoldingRegisters c.1 addr qty
      (r.1, r.2, c.2)
    writeSingleRegister := fun c addr value =>
      let r := client.writeSingleRegister c.1 addr value
      (r.1, r.2, c.2)
    writeMultipleRegisters := fun c addr qty data =>
      let r := client.writeMultipleRegisters c.1 addr qty data
      (r.1, r.2, c.2)
    connect := fun cfg c =>
      let r := client.connect cfg c.1
      (r.1, r.2, c.2 ++ connectUsage H c.1.1 cfg)
    disconnect := fun c => (client.disconnect c.1, c.2 ++ disconnectUsage c.1.1.ctx) }

/-- The descriptor opened last. -/
def lastOpened (us : List (Usage CtxResource)) : Option ℕ :=
  us.foldl (fun last u => match u with
    | .acquire (.descriptor fd) => some fd
    | _ => last) none

/-- The context acquires only what it does not hold and releases only what it holds, and it closes
only the descriptor that it opened last. -/
def WellUsed (us : List (Usage CtxResource)) : Prop :=
  Respects us ∧
    Always (fun before u => ∀ fd, u = .release (.descriptor fd) → lastOpened before = some fd) us

variable {us vs : List (Usage CtxResource)} {u : Usage CtxResource}

theorem wellUsed_concat : WellUsed (us ++ [u]) ↔
    WellUsed us ∧ u.Allowed us ∧ ∀ fd, u = .release (.descriptor fd) → lastOpened us = some fd := by
  rw [WellUsed, respects_concat, always_concat, and_and_and_comm]
  rfl

theorem WellUsed.of_append (h : WellUsed (us ++ vs)) : WellUsed us :=
  ⟨h.1.of_append, h.2.of_append⟩

/-- Nothing is held. -/
def Idle (us : List (Usage CtxResource)) : Prop := ∀ r, held r us = false

/-- The mutex is held, and the descriptor `fd`, which was opened last, and nothing else. -/
structure Opened (fd : ℕ) (us : List (Usage CtxResource)) : Prop where
  lock : held .lock us = true
  descriptor : ∀ fd', held (.descriptor fd') us = decide (fd = fd')
  last : lastOpened us = some fd

/-- A successful attempt. -/
theorem Idle.connect (h : Idle us) (hus : WellUsed us) (fd : ℕ) :
    WellUsed (us ++ [.acquire .lock, .acquire (.descriptor fd)]) ∧
      Opened fd (us ++ [.acquire .lock, .acquire (.descriptor fd)]) := by
  rw [List.append_cons]
  refine ⟨wellUsed_concat.mpr ⟨wellUsed_concat.mpr ⟨hus, h _, by simp⟩, ?_, by simp⟩, ?_, ?_, ?_⟩
  · simp [Usage.Allowed, Usage.after, h (.descriptor fd)]
  · simp [Usage.after]
  · intro fd'
    simp [Usage.after, h (.descriptor fd')]
  · simp [lastOpened]

/-- An attempt that fails once the mutex is there. -/
theorem Idle.refuse (h : Idle us) (hus : WellUsed us) :
    WellUsed (us ++ [.acquire .lock, .release .lock]) ∧
      Idle (us ++ [.acquire .lock, .release .lock]) := by
  refine ⟨?_, fun r => (held_acquire_release (h .lock)).trans (h r)⟩
  rw [List.append_cons]
  refine wellUsed_concat.mpr ⟨wellUsed_concat.mpr ⟨hus, h _, by simp⟩, ?_, by simp⟩
  simp [Usage.Allowed, Usage.after]

/-- Disconnecting a client that is connected. -/
theorem Opened.disconnect {fd : ℕ} (h : Opened fd us) (hus : WellUsed us) {ctx : MbTcpClientCtx}
    (hsock : ctx.sock = fd) :
    WellUsed (us ++ disconnectUsage ctx) ∧ Idle (us ++ disconnectUsage ctx) := by
  have hdis : disconnectUsage ctx = [.release (.descriptor fd), .release .lock] := by
    simp [disconnectUsage, hsock]
  rw [hdis, List.append_cons]
  refine ⟨wellUsed_concat.mpr ⟨wellUsed_concat.mpr ⟨hus, ?_, ?_⟩, ?_, by simp⟩, fun r => ?_⟩
  · simp [Usage.Allowed, h.descriptor]
  · rintro _ ⟨⟩
    exact h.last
  · simp [Usage.Allowed, Usage.after, h.lock]
  · cases r with
    | lock => simp [Usage.after]
    | descriptor fd' => simp [Usage.after, h.descriptor]

/-- Disconnecting a client that holds nothing. -/
theorem Idle.not_wellUsed_disconnect (h : Idle us) (ctx : MbTcpClientCtx) :
    ¬ WellUsed (us ++ disconnectUsage ctx) := by
  intro hus
  unfold disconnectUsage at hus
  split_ifs at hus
  · rw [List.append_cons] at hus
    exact not_respects_release (h _) hus.of_append.1
  · exact not_respects_release (h _) hus.1

end Usage

/-! ### Runs -/

section Runs

variable {γ : Type*}

inductive ThreadAction
  /-- A step of the thread. -/
  | step
  /-- The unit is told to stop. -/
  | stop
  /-- The write of a register is queued. -/
  | push (addr val : UInt16)
  deriving DecidableEq, Repr

/-- The runs of one thread, with the phase and the flag that each of its steps starts from. -/
def threadMachine (api : UnitApi γ) : Machine (UnitThread γ) ThreadAction (Phase × Bool) where
  step t
    | .step => ((threadStep api t).1, [(t.phase, t.running)])
    | .stop => ({ t with running := false }, [])
    | .push addr val => (t.push addr val, [])

/-- A unit before the first step of its thread. -/
def UnitThread.start (cfg : ModuleConfig) (profile : DeviceMapProfile) (conn : γ) : UnitThread γ :=
  ⟨cfg, ⟨profile, conn, 0, queueInit⟩, true, .connecting⟩

/-- The thread ends only when it comes from the head of its inner loop, where it finds the flag
cleared while it is connected. -/
def ExitsConnected (steps : List (Phase × Bool)) : Prop :=
  Always (fun before step => step = (.connecting, false) →
    before.getLast? = some (.polling, false)) steps

variable {σ : Type*}

/-- What a unit has acquired and released. -/
def UnitThread.usage (t : UnitThread (AccountedClient σ)) : List (Usage CtxResource) :=
  t.unit.tcpCtx.2

/-- The client of a unit holds its mutex and the descriptor of its socket. -/
def UnitThread.Holds (t : UnitThread (AccountedClient σ)) : Prop :=
  ∃ fd : ℕ, t.unit.tcpCtx.1.1.ctx.sock = fd ∧ Opened fd t.usage

/-- Where a thread stands, and what its context then holds. -/
inductive Tidy (steps : List (Phase × Bool)) (t : UnitThread (AccountedClient σ)) : Prop
  | connected (h : t.phase.connected = true) (hholds : t.Holds)
  | leaving (h : t.phase = .connecting) (hrunning : t.running = false)
      (hlast : steps.getLast? = some (.polling, false)) (hholds : t.Holds)
  | idle (h : t.phase = .connecting) (hlast : steps.getLast? ≠ some (.polling, false))
      (hidle : Idle t.usage)
  | stopped (h : t.phase = .stopped)

/-- The history of a thread: it has used its context well as long as it only ended connected, and
then its context is in order. -/
structure Accounts (steps : List (Phase × Bool)) (t : UnitThread (AccountedClient σ)) : Prop where
  wellUsed_iff : WellUsed t.usage ↔ ExitsConnected steps
  tidy : ExitsConnected steps → Tidy steps t

variable {steps : List (Phase × Bool)} {t t' : UnitThread (AccountedClient σ)}

theorem keeps_resourceApi (H : Host σ) (stack : ℕ → ResponseBuffer) :
    Keeps (resourceApi H stack).toModbusApi fun c => (c.1.1.ctx.sock, c.2) := by
  refine ⟨fun c addr qty => ?_, fun c addr value => ?_, fun c addr qty data => ?_⟩
  · exact congrArg (·, c.2) (Request.ctx_call H.toTransport c.1.1 (.read addr qty) _).1
  · exact congrArg (·, c.2) (Request.ctx_call H.toTransport c.1.1 (.writeSingle addr value) _).1
  · exact congrArg (·, c.2)
      (Request.ctx_call H.toTransport c.1.1 (.writeMultiple addr qty data) _).1

/-- What a step adds to the account. -/
theorem LoopStep.usage {H : Host σ} {stack : ℕ → ResponseBuffer}
    (h : LoopStep (resourceApi H stack) (fun c => (c.1.1.ctx.sock, c.2)) t t') :
    ∃ us, t'.usage = t.usage ++ us := by
  cases h with
  | connected _ _ _ _ hctx => exact ⟨_, congrArg Prod.snd hctx⟩
  | refused _ _ _ _ hctx => exact ⟨_, congrArg Prod.snd hctx⟩
  | ended _ _ _ hctx => exact ⟨_, congrArg Prod.snd hctx⟩
  | failed _ _ hctx => exact ⟨_, congrArg Prod.snd hctx⟩
  | left _ _ _ hctx => exact ⟨[], (congrArg Prod.snd hctx).trans (List.append_nil _).symm⟩
  | inside _ _ hctx => exact ⟨[], (congrArg Prod.snd hctx).trans (List.append_nil _).symm⟩
  | stopped _ h' => exact ⟨[], h' ▸ (List.append_nil _).symm⟩

theorem Tidy.holds (h : Tidy steps t) (hphase : t.phase.connected = true) : t.Holds := by
  cases h with
  | connected _ hholds => exact hholds
  | leaving h => simp [h, Phase.connected] at hphase
  | idle h => simp [h, Phase.connected] at hphase
  | stopped h => simp [h, Phase.connected] at hphase

theorem Tidy.idle_of_connecting (h : Tidy steps t) (hphase : t.phase = .connecting)
    (hne : t.running = true ∨ steps.getLast? ≠ some (.polling, false)) : Idle t.usage := by
  cases h with
  | connected h => simp [hphase, Phase.connected] at h
  | leaving _ hrunning hlast => simp [hrunning, hlast] at hne
  | idle _ _ hidle => exact hidle
  | stopped h => simp [hphase] at h

theorem Tidy.holds_of_leaving (h : Tidy steps t) (hphase : t.phase = .connecting)
    (hlast : steps.getLast? = some (.polling, false)) : t.Holds := by
  cases h with
  | connected _ hholds => exact hholds
  | leaving _ _ _ hholds => exact hholds
  | idle _ hne => exact absurd hlast hne
  | stopped h => simp [hphase] at h

/-- Disconnecting a unit that holds its resources. -/
theorem UnitThread.Holds.disconnect {H : Host σ} {stack : ℕ → ResponseBuffer} (h : t.Holds)
    (hwell : WellUsed t.usage)
    (hctx : t'.unit.tcpCtx = (resourceApi H stack).disconnect t.unit.tcpCtx) :
    WellUsed t'.usage ∧ Idle t'.usage := by
  obtain ⟨fd, hsock, hopened⟩ := h
  have husage : t'.usage = t.usage ++ disconnectUsage t.unit.tcpCtx.1.1.ctx :=
    congrArg Prod.snd hctx
  rw [husage]
  exact hopened.disconnect hwell hsock

/-- Connecting a unit that holds nothing. -/
theorem UnitThread.holds_of_connect {H : Host σ} {stack : ℕ → ResponseBuffer}
    (hidle : Idle t.usage) (hwell : WellUsed t.usage)
    (hrc : ((resourceApi H stack).connect t.cfg.client t.unit.tcpCtx).1 = 0)
    (hctx : t'.unit.tcpCtx = ((resourceApi H stack).connect t.cfg.client t.unit.tcpCtx).2) :
    WellUsed t'.usage ∧ t'.Holds := by
  have husage : t'.usage = t.usage ++ connectUsage H t.unit.tcpCtx.1.1 t.cfg.client :=
    congrArg Prod.snd hctx
  rcases connectUsage_cases H t.unit.tcpCtx.1.1 t.cfg.client with
    ⟨fd, -, hsock, hacquired⟩ | ⟨hrc', -⟩
  · obtain ⟨hwell', hopened⟩ := hidle.connect hwell fd
    rw [← hacquired, ← husage] at hwell' hopened
    refine ⟨hwell', fd, ?_, hopened⟩
    rw [hctx]
    exact hsock
  · exact absurd hrc hrc'

/-- A unit that holds nothing, and is refused. -/
theorem UnitThread.idle_of_refused {H : Host σ} {stack : ℕ → ResponseBuffer}
    (hidle : Idle t.usage) (hwell : WellUsed t.usage)
    (hrc : ((resourceApi H stack).connect t.cfg.client t.unit.tcpCtx).1 ≠ 0)
    (hctx : t'.unit.tcpCtx = ((resourceApi H stack).connect t.cfg.client t.unit.tcpCtx).2) :
    WellUsed t'.usage ∧ Idle t'.usage := by
  have husage : t'.usage = t.usage ++ connectUsage H t.unit.tcpCtx.1.1 t.cfg.client :=
    congrArg Prod.snd hctx
  rcases connectUsage_cases H t.unit.tcpCtx.1.1 t.cfg.client with
    ⟨fd, hrc', -⟩ | ⟨-, hacquired | hacquired⟩
  · exact absurd hrc' hrc
  · rw [hacquired, List.append_nil] at husage
    exact husage ▸ ⟨hwell, hidle⟩
  · rw [husage, hacquired]
    exact hidle.refuse hwell

theorem exitsConnected_concat :
    ExitsConnected (steps ++ [(t.phase, t.running)]) ↔ ExitsConnected steps ∧
      ((t.phase, t.running) = (.connecting, false) →
        steps.getLast? = some (.polling, false)) :=
  always_concat

theorem getLast?_concat_ne {phase : Phase} (hphase : t.phase = phase) (hne : phase ≠ .polling) :
    (steps ++ [(t.phase, t.running)]).getLast? ≠ some (.polling, false) := by
  intro hlast
  rw [List.getLast?_concat, Option.some.injEq, Prod.mk.injEq] at hlast
  exact hne (hphase.symm.trans hlast.1)

/-- A step keeps the context in order, if it does not end a thread that is not connected. -/
theorem Tidy.step {H : Host σ} {stack : ℕ → ResponseBuffer} (htidy : Tidy steps t)
    (hwell : WellUsed t.usage)
    (hloop : LoopStep (resourceApi H stack) (fun c => (c.1.1.ctx.sock, c.2)) t t')
    (hrun : t'.running = t.running)
    (hexit : (t.phase, t.running) = (.connecting, false) →
      steps.getLast? = some (.polling, false)) :
    WellUsed t'.usage ∧ Tidy (steps ++ [(t.phase, t.running)]) t' := by
  cases hloop with
  | connected hphase hrunning hrc h' hctx =>
    have hidle := htidy.idle_of_connecting hphase (.inl hrunning)
    obtain ⟨hwell', hholds⟩ := UnitThread.holds_of_connect hidle hwell hrc hctx
    exact ⟨hwell', .connected (by rw [h']; rfl) hholds⟩
  | refused hphase hrunning hrc h' hctx =>
    have hidle := htidy.idle_of_connecting hphase (.inl hrunning)
    obtain ⟨hwell', hidle'⟩ := UnitThread.idle_of_refused hidle hwell hrc hctx
    exact ⟨hwell', .idle h' (getLast?_concat_ne hphase Phase.noConfusion) hidle'⟩
  | ended hphase hrunning h' hctx =>
    have hlast := hexit (by rw [hphase, hrunning])
    exact ⟨((htidy.holds_of_leaving hphase hlast).disconnect hwell hctx).1, .stopped h'⟩
  | failed hphase h' hctx =>
    have hend := (htidy.holds (by rw [hphase]; rfl)).disconnect hwell hctx
    exact ⟨hend.1, .idle h' (getLast?_concat_ne hphase Phase.noConfusion) hend.2⟩
  | left hphase hrunning h' hctx =>
    obtain ⟨fd, hsock, hopened⟩ := htidy.holds (by rw [hphase]; rfl)
    have husage : t'.usage = t.usage := congrArg Prod.snd hctx
    refine ⟨husage ▸ hwell, .leaving h' (hrun.trans hrunning) ?_ ⟨fd, ?_, husage ▸ hopened⟩⟩
    · rw [List.getLast?_concat, hphase, hrunning]
    · rw [hctx, hsock]
  | inside hphase h' hctx =>
    obtain ⟨fd, hsock, hopened⟩ := htidy.holds hphase
    have husage : t'.usage = t.usage := (Prod.mk.inj hctx).2
    exact ⟨husage ▸ hwell,
      .connected h' ⟨fd, (Prod.mk.inj hctx).1.trans hsock, husage ▸ hopened⟩⟩
  | stopped hphase h' =>
    obtain rfl := h'
    exact ⟨hwell, .stopped hphase⟩

/-- A thread that ends without being connected destroys a mutex that is not in use. -/
theorem Tidy.not_wellUsed_step {H : Host σ} {stack : ℕ → ResponseBuffer} (htidy : Tidy steps t)
    (hloop : LoopStep (resourceApi H stack) (fun c => (c.1.1.ctx.sock, c.2)) t t')
    (hphase : t.phase = .connecting) (hrunning : t.running = false)
    (hlast : steps.getLast? ≠ some (.polling, false)) : ¬ WellUsed t'.usage := by
  cases hloop with
  | ended _ _ _ hctx =>
    have husage : t'.usage = t.usage ++ disconnectUsage t.unit.tcpCtx.1.1.ctx :=
      congrArg Prod.snd hctx
    rw [husage]
    exact (htidy.idle_of_connecting hphase (.inr hlast)).not_wellUsed_disconnect _
  | connected _ hrunning' => exact absurd (hrunning.symm.trans hrunning') Bool.false_ne_true
  | refused _ hrunning' => exact absurd (hrunning.symm.trans hrunning') Bool.false_ne_true
  | failed hphase' => exact Phase.noConfusion (hphase.symm.trans hphase')
  | left hphase' => exact Phase.noConfusion (hphase.symm.trans hphase')
  | inside hconnected =>
    rw [hphase] at hconnected
    exact absurd hconnected Bool.false_ne_true
  | stopped hphase' => exact Phase.noConfusion (hphase.symm.trans hphase')

/-- **One step of the thread.** As long as the thread ends connected, it keeps its context in order;
when it does not, it destroys a mutex that is not in use. -/
theorem Accounts.step (h : Accounts steps t) (H : Host σ) (stack : ℕ → ResponseBuffer) :
    Accounts (steps ++ [(t.phase, t.running)]) (threadStep (resourceApi H stack) t).1 := by
  have hloop := threadStep_loop (keeps_resourceApi H stack) t
  have hrun := threadStep_running (resourceApi H stack) t
  by_cases hsteps : ExitsConnected steps
  · have hwell := h.wellUsed_iff.mpr hsteps
    have htidy := h.tidy hsteps
    by_cases hexit : (t.phase, t.running) = (.connecting, false) →
        steps.getLast? = some (.polling, false)
    · obtain ⟨hwell', htidy'⟩ := htidy.step hwell hloop hrun hexit
      exact ⟨iff_of_true hwell' (exitsConnected_concat.mpr ⟨hsteps, hexit⟩), fun _ => htidy'⟩
    · have hbad : ¬ ExitsConnected (steps ++ [(t.phase, t.running)]) :=
        fun hall => hexit (exitsConnected_concat.mp hall).2
      obtain ⟨hends, hlast⟩ := Classical.not_imp.mp hexit
      obtain ⟨hphase, hrunning⟩ := Prod.mk.inj hends
      exact ⟨iff_of_false (htidy.not_wellUsed_step hloop hphase hrunning hlast) hbad,
        fun hall => absurd hall hbad⟩
  · -- Once a run has gone wrong it stays so.
    have hbad : ¬ ExitsConnected (steps ++ [(t.phase, t.running)]) :=
      fun hall => hsteps (exitsConnected_concat.mp hall).1
    obtain ⟨us, hus⟩ := hloop.usage
    refine ⟨iff_of_false (fun hwell => ?_) hbad, fun hall => absurd hall hbad⟩
    rw [hus] at hwell
    exact hsteps (h.wellUsed_iff.mp hwell.of_append)

/-- A stop request, or a write that is queued, leaves the context as it is. -/
theorem Accounts.of_eq (h : Accounts steps t) (hctx : t'.unit.tcpCtx = t.unit.tcpCtx)
    (hphase : t'.phase = t.phase) (hrunning : t.running = false → t'.running = false) :
    Accounts steps t' := by
  have husage : t'.usage = t.usage := congrArg Prod.snd hctx
  refine ⟨husage ▸ h.wellUsed_iff, fun hall => ?_⟩
  have hholds : t.Holds → t'.Holds := by
    rintro ⟨fd, hsock, hopened⟩
    exact ⟨fd, hctx ▸ hsock, husage ▸ hopened⟩
  cases h.tidy hall with
  | connected h hheld => exact .connected (hphase ▸ h) (hholds hheld)
  | leaving h hr hlast hheld => exact .leaving (hphase ▸ h) (hrunning hr) hlast (hholds hheld)
  | idle h hlast hidle => exact .idle (hphase ▸ h) hlast (husage ▸ hidle)
  | stopped h => exact .stopped (hphase ▸ h)

/-- **The descriptor and the mutex of a unit.** Over every run of the thread of a started unit,
whatever becomes of its connection attempts and its callbacks and whenever it is told to stop: its
context is well used exactly as long as the thread ends from its inner loop, connected. A thread
that ends before it is connected, or after its error callback, destroys a mutex that is not in use.
-/
theorem wellUsed_iff_exitsConnected (H : Host σ) (stack : ℕ → ResponseBuffer) (cfg : ModuleConfig)
    (profile : DeviceMapProfile) (conn : Conn σ) (calls : ℕ) (actions : List ThreadAction) :
    let M := threadMachine (resourceApi H stack)
    let start := UnitThread.start cfg profile ((⟨.zero, conn⟩, calls), [])
    WellUsed (M.state start actions).usage ↔ ExitsConnected (M.trace start actions) := by
  intro M start
  have hstart : Accounts [] start :=
    ⟨iff_of_true ⟨respects_nil, always_nil⟩ always_nil,
      fun _ => .idle rfl (by simp) fun _ => rfl⟩
  refine (M.trace_invariant (fun t steps => Accounts steps t) hstart ?_ actions).wellUsed_iff
  intro t steps a h
  cases a with
  | step => exact h.step H stack
  | stop =>
    simp only [M, threadMachine, List.append_nil]
    exact h.of_eq rfl rfl fun _ => rfl
  | push addr val =>
    simp only [M, threadMachine, List.append_nil]
    exact h.of_eq rfl rfl id

/-- A host on which every attempt would succeed. -/
def silentHost : Host Unit where
  toNetwork := silentNetwork
  mutexInit c := (true, c)

/-- A unit without an address is told to stop after its first attempt. Its context still is the one
filled with zero bytes: the thread closes the descriptor 0 and destroys a mutex never initialised.
-/
theorem not_wellUsed_zeroFilled :
    let M := threadMachine (resourceApi silentHost fun _ => Vector.replicate _ 0)
    let start := UnitThread.start ⟨true, 1, "", 502⟩ ups1Profile ((⟨.zero, ⟨.other 0, ()⟩⟩, 0), [])
    let usage := (M.state start [.step, .stop, .step]).usage
    usage = [.release (.descriptor 0), .release .lock] ∧ ¬ WellUsed usage := by
  intro M start usage
  have husage : usage = [.release (.descriptor 0), .release .lock] := by decide +kernel
  refine ⟨husage, fun hwell => ?_⟩
  rw [husage] at hwell
  have hlast : WellUsed (([] ++ [.release (.descriptor 0)]) ++ [.release .lock]) := hwell
  exact not_respects_release rfl hlast.of_append.1

end Runs

end LoopCharger.Ups
