/-
A server's methods in the program that uses it.

`onServer` carries a method of the server over to the program, as a map
of computations. A callback that works on the server alone makes the
program's `SendKeepAlive()` and `Send_AllClients()` the server's own
(`sendKeepAlive_onServer`), so the model with the program's data adds
that data and nothing else.
-/
import AWEnginePacket.Model.Broadcast
import AWEnginePacket.Proofs.Sweep

namespace AWEnginePacket

open Endian (ByteOrder)
open Effect

namespace ServerProgram

variable {σ α β : Type} {host : ByteOrder} {ids : PacketIDs}
  {s : ServerProgram σ} {i : Nat} {p : Option Nat}

-- ============================================================== the map

/-- The server's method returned: the user's data are as they were. -/
theorem onServer_of_ok {m : ServerM α} {a : α} {q : PacketServer}
    (h : m.run s.server = .ok a q) :
    (onServer m).run s = .ok a { s with server := q } := by
  show onServer m s = _
  rw [onServer, h]

/-- It threw, and they still are. -/
theorem onServer_of_error {m : ServerM α} {e : Fault} {q : PacketServer}
    (h : m.run s.server = .error e q) :
    (onServer m).run s = .error e { s with server := q } := by
  show onServer m s = _
  rw [onServer, h]

/-- Pieces of a method in sequence. -/
theorem onServer_bind (m : ServerM α) (k : α → ServerM β) :
    (onServer (m >>= k) : ProgramM σ β)
      = onServer m >>= fun a => onServer (k a) := by
  funext s
  show (onServer (m >>= k)).run s = (onServer m >>= _).run s
  cases hm : m.run s.server with
  | ok a q =>
      rw [run_bind_of_ok (onServer_of_ok hm)]
      show onServer (m >>= k) s = onServer (k a) { s with server := q }
      rw [onServer, onServer, run_bind_of_ok hm]
  | error e q =>
      rw [run_bind_of_error (onServer_of_error hm)]
      exact onServer_of_error (run_bind_of_error hm)

/-- Looking at the server. -/
theorem onServer_get_bind (k : PacketServer → ServerM β) :
    (onServer (get >>= k) : ProgramM σ β)
      = get >>= fun s => onServer (k s.server) := rfl

/-- A choice that the server makes. -/
theorem onServer_ite {c : Prop} [Decidable c] (m m' : ServerM α) :
    (onServer (if c then m else m') : ProgramM σ α)
      = if c then onServer m else onServer m' := by
  split
  · rfl
  · rfl

/-- The entry of `m_Connections` that a loop has come to. -/
theorem connectionAt_run (hi : s.server.mConnections[i]? = some p) :
    (onServer (PacketServer.connectionAt i)).run s = .ok p s :=
  onServer_of_ok (PacketServer.connectionAt_run hi)

-- ===================================================== the server's methods

/-- A callback that works on the server alone. -/
def onServerCallback
    (onClientDisconnect : Option (Option Nat → ServerM PUnit)) :
    Option (Option Nat → ProgramM σ PUnit) :=
  onClientDisconnect.map fun callback p => onServer (callback p)

variable {onClientDisconnect : Option (Option Nat → ServerM PUnit)}

/-- Telling a callback of this kind and resetting the entry is the server's
own work. -/
theorem dropAt_onServer (i : Nat) (p : Option Nat) :
    (dropAt (onServerCallback onClientDisconnect) i p : ProgramM σ PUnit)
      = onServer (PacketServer.dropAt onClientDisconnect i p) := by
  cases onClientDisconnect with
  | none => rfl
  | some callback =>
      exact (onServer_bind (callback p) fun _ => modify _).symm

/-- A loop whose visits are the server's is the server's: induction on what
it has still to visit. -/
theorem forConnections_onServer {visit : Nat → ServerM Bool}
    {visit' : Nat → ProgramM σ Bool} (h : ∀ i, visit' i = onServer (visit i))
    (is : List Nat) :
    forConnections visit' is
      = onServer (PacketServer.forConnections visit is) := by
  induction is with
  | nil => rfl
  | cons i is ih =>
      rw [forConnections, PacketServer.forConnections, onServer_bind, h, ih]
      congr 1
      funext invalid
      rw [onServer_bind]
      rfl

/-- Telling the user and resetting, in a method of the server. -/
theorem drop_onServer (i : Nat) (p : Option Nat) :
    (do dropAt (onServerCallback onClientDisconnect) i p
        pure true : ProgramM σ Bool)
      = onServer (do PacketServer.dropAt onClientDisconnect i p
                     pure true) := by
  rw [onServer_bind, dropAt_onServer]
  rfl

/-- One visit of `Send_AllClients()`, whichever of its branches is taken. -/
theorem sendAt_onServer (packet : IPacket) (ignoredClient : Option Nat)
    (i : Nat) :
    (sendAt host ids (onServerCallback onClientDisconnect) packet
        ignoredClient i : ProgramM σ Bool)
      = onServer (PacketServer.sendAt host ids onClientDisconnect packet
          ignoredClient i) := by
  rw [sendAt, PacketServer.sendAt, onServer_bind]
  congr 1
  funext p
  rw [onServer_get_bind]
  congr 1
  funext s
  cases p with
  | none => exact drop_onServer i none
  | some k =>
      dsimp only
      rw [onServer_ite, onServer_ite, onServer_ite, onServer_bind,
        drop_onServer]
      rfl

/-- So the method is the server's, as the loop goes over the same entries. -/
theorem sendAllClients_onServer (packet : IPacket)
    (ignoredClient : Option Nat) :
    (sendAllClients host ids (onServerCallback onClientDisconnect) packet
        ignoredClient : ProgramM σ PUnit)
      = onServer (PacketServer.sendAllClients host ids onClientDisconnect
          packet ignoredClient) := by
  rw [sendAllClients, PacketServer.sendAllClients, onServer_get_bind]
  congr 1
  funext s
  rw [onServer_bind, ← forConnections_onServer fun i =>
    sendAt_onServer packet ignoredClient i]

/-- One visit of the first loop of `SendKeepAlive()`. -/
theorem sweepAt_onServer (oldestKeepAlive : TimePoint) (i : Nat) :
    (sweepAt (onServerCallback onClientDisconnect) oldestKeepAlive i
        : ProgramM σ Bool)
      = onServer (PacketServer.sweepAt onClientDisconnect oldestKeepAlive i)
      := by
  rw [sweepAt, PacketServer.sweepAt, onServer_bind]
  congr 1
  funext p
  rw [onServer_get_bind]
  congr 1
  funext s
  rw [onServer_ite, drop_onServer]
  rfl

/-- With a callback that works on the server alone, the method is the
server's. -/
theorem sendKeepAlive_onServer (now later : TimePoint) :
    (sendKeepAlive host ids (onServerCallback onClientDisconnect) now later
        : ProgramM σ PUnit)
      = onServer (PacketServer.sendKeepAlive host ids onClientDisconnect now
          later) := by
  rw [sendKeepAlive, PacketServer.sendKeepAlive, onServer_get_bind]
  congr 1
  funext s
  rw [onServer_bind, ← forConnections_onServer fun i =>
    sweepAt_onServer _ i]
  congr 1
  funext invalidClientExists
  rw [onServer_bind, sendAllClients_onServer]

end ServerProgram

end AWEnginePacket
