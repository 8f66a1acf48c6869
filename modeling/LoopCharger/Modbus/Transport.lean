import Mathlib.Data.Int.Notation
import LoopCharger.Lib.Bytes

/-!
# Sockets as the client sees them

The client reaches its server through `send` and `recv` on one connected socket. Both are outside
the repository, so they are parameters: a `Transport` says how the two calls act on the state of
the network, and nothing more than that a call of `recv` never returns more than was asked for.

## Main definitions

* `Errno`, `RecvResult`, `SendResult`: what the two calls report.
* `Transport`: the calls, on a type of network states.
* `Transport.Reads`: the bytes taken from the network by any number of calls of `recv`.
* `Conn`: a network state with the `errno` of the calling thread.
-/

namespace LoopCharger.Modbus

open Lib

/-- The values of `errno` that the client tells apart. -/
inductive Errno
  | eagain
  | ewouldblock
  | etimedout
  | other (code : ℕ)
  deriving DecidableEq, Repr

/-- The test by which a failed `recv` counts as a timeout. -/
def Errno.isTimeout : Errno → Bool
  | .eagain | .ewouldblock | .etimedout => true
  | .other _ => false

/-- The outcome of one `recv`. No bytes means that the peer closed the connection; `errno` is set
by an error only. -/
inductive RecvResult
  | received (bs : Bytes)
  | error (e : Errno)
  deriving DecidableEq, Repr

/-- The bytes that a `recv` stored. -/
def RecvResult.bytes : RecvResult → Bytes
  | .received bs => bs
  | .error _ => []

@[simp] theorem RecvResult.bytes_received (bs : Bytes) : (received bs).bytes = bs := rfl

@[simp] theorem RecvResult.bytes_error (e : Errno) : (error e).bytes = [] := rfl

/-- The outcome of one `send`: the number of bytes taken, or an error. -/
inductive SendResult
  | sent (n : ℕ)
  | error (e : Errno)
  deriving DecidableEq, Repr

/-- The `errno` after a `send`; one that succeeds does not set it. -/
def SendResult.errnoAfter (errno : Errno) : SendResult → Errno
  | .sent _ => errno
  | .error e => e

/-- The two socket calls on the network states `σ`. -/
structure Transport (σ : Type*) where
  recv : σ → ℕ → RecvResult × σ
  send : σ → Bytes → SendResult × σ
  /-- No more bytes are stored than were asked for. -/
  length_recv_le : ∀ s n, (recv s n).1.bytes.length ≤ n

namespace Transport

variable {σ : Type*} (T : Transport σ)

/-- `T.Reads s bs s'`: calls of `recv`, one after the other, lead from `s` to `s'` and store the
bytes `bs`. -/
inductive Reads : σ → Bytes → σ → Prop
  | refl (s : σ) : Reads s [] s
  | recv {s s' : σ} {bs : Bytes} (n : ℕ) (h : Reads s bs s') :
      Reads s (bs ++ (T.recv s' n).1.bytes) (T.recv s' n).2

variable {T} {s s' s'' : σ} {bs cs : Bytes}

theorem Reads.trans (h : T.Reads s bs s') (h' : T.Reads s' cs s'') :
    T.Reads s (bs ++ cs) s'' := by
  induction h' with
  | refl => simpa using h
  | recv n _ ih => simpa only [List.append_assoc] using ih.recv n

theorem Reads.single (T : Transport σ) (s : σ) (n : ℕ) :
    T.Reads s (T.recv s n).1.bytes (T.recv s n).2 :=
  (Reads.refl s).recv n

end Transport

/-- A network state with the `errno` of the calling thread. -/
structure Conn (σ : Type*) where
  errno : Errno
  net : σ

end LoopCharger.Modbus
