import LoopCharger.Lib.Usage
import LoopCharger.Modbus.Connect

/-!
# The descriptor and the mutex of a context

What `mb_tcp_client_connect` and `mb_tcp_client_disconnect` of `lib/modbus/modbus_tcp_client.c` do
to the two resources of a context: the descriptor of its socket and its mutex. On a `Host` the mutex
is initialised before the connection attempt, and either may fail.

## Main definitions

* `Host`, `Host.network`: a network with `pthread_mutex_init`, and the network that the client sees.
* `connectUsage`, `disconnectUsage`: what the two operations acquire and release.

## Main results

* `connectUsage_cases`: what an attempt acquires, by its outcome.
-/

namespace LoopCharger.Modbus

open Lib

/-- The resources of a context. -/
inductive CtxResource
  | descriptor (fd : ℕ)
  | lock
  deriving DecidableEq, Repr

/-- A network on which the initialisation of a mutex may fail. -/
structure Host (σ : Type*) extends Network σ where
  /-- `pthread_mutex_init`: whether it succeeds. -/
  mutexInit : Conn σ → Bool × Conn σ

variable {σ : Type*} (H : Host σ)

/-- The connection attempts of a client, with the initialisation of its mutex. -/
def Host.network : Network σ where
  toTransport := H.toTransport
  connect host port c :=
    match H.mutexInit c with
    | (false, c) => (none, c)
    | (true, c) => H.connect host port c
  close := H.close

/-- What `mb_tcp_client_connect` acquires and releases. -/
def connectUsage (cl : Client σ) (cfg : MbTcpClientConfig) : List (Usage CtxResource) :=
  if cfg.remoteHost = "" ∨ cfg.port = 0 then []
  else
    match H.mutexInit cl.conn with
    | (false, _) => []
    | (true, conn) =>
      match (H.connect cfg.remoteHost cfg.port conn).1 with
      | some fd => [.acquire .lock, .acquire (.descriptor fd)]
      | none => [.acquire .lock, .release .lock]

/-- What `mb_tcp_client_disconnect` releases: the descriptor if there is one, and the mutex. -/
def disconnectUsage (ctx : MbTcpClientCtx) : List (Usage CtxResource) :=
  if ctx.sock ≥ 0 then [.release (.descriptor ctx.sock.toNat), .release .lock]
  else [.release .lock]

/-- A client that is connected holds its mutex and the descriptor of its socket. A failed attempt
keeps nothing. -/
theorem connectUsage_cases (cl : Client σ) (cfg : MbTcpClientConfig) :
    (∃ fd : ℕ, (mbTcpClientConnect H.network cl cfg).1 = 0 ∧
        (mbTcpClientConnect H.network cl cfg).2.ctx.sock = fd ∧
        connectUsage H cl cfg = [.acquire .lock, .acquire (.descriptor fd)]) ∨
      (mbTcpClientConnect H.network cl cfg).1 ≠ 0 ∧
        (connectUsage H cl cfg = [] ∨
          connectUsage H cl cfg = [.acquire .lock, .release .lock]) := by
  have hneg : (-1 : ℤ) ≠ 0 := by decide
  simp only [mbTcpClientConnect, connectUsage, Host.network]
  split_ifs with hcfg
  · exact .inr ⟨hneg, .inl rfl⟩
  rcases H.mutexInit cl.conn with ⟨_ | _, conn⟩
  · exact .inr ⟨hneg, .inl rfl⟩
  simp only
  rcases H.connect cfg.remoteHost cfg.port conn with ⟨_ | fd, conn⟩
  · exact .inr ⟨hneg, .inr rfl⟩
  · exact .inl ⟨fd, rfl, rfl, rfl⟩

end LoopCharger.Modbus
