import Ecapplog.Clones
import Ecapplog.Graceful
import Ecapplog.Pipeline

/-! What became of all that a program has logged, once it is through with its client. -/

namespace Ecapplog

open MockServer (Line SerdeValue output recordLine)

variable {bufferSize : Nat} {config : Config} {serde : SerdeJson} {limit : Instant} {s : Sys}

/-- From some moment of the closing on, at which the worker was not about a failed connection,
the server was there and the time enough. -/
def Sys.DrainedInTime (config : Config) (serde : SerdeJson) (bufferSize : Nat) (s : Sys) : Prop :=
  ∃ limit r, Reachable config serde bufferSize r ∧ r.queue.isShutdown = true ∧
    r.pc.running = true ∧ r.pc.failing = false ∧ Ample config limit r.control ∧
    PartialRun.ReachesWhen (Sys.step config serde) (InTime limit) r s

theorem Sys.DrainedInTime.empty (inTime : s.DrainedInTime config serde bufferSize)
    (drains : config.flushOnClose = true) (stopped : s.pc.running = false) :
    s.queue.state.items = [] := by
  obtain ⟨limit, r, reached, requested, running, unbroken, ample, ran⟩ := inTime
  have inv := drained_so_far drains reached requested running unbroken ample ran
  exact (inv.steady.ended stopped).2

end Ecapplog
