import Courier.Failure
import Courier.Misuse

/-!
# Work on a worker of its own

Work handed to a named worker either returns a value, which the caller gets, or panics, which the
caller gets as a failure that names the worker. The name is that of a thread, so that a name which
no thread can bear makes the caller panic before the work begins.
-/

namespace Courier

/-- How a piece of work ends. -/
inductive Work (α : Type) where
  | returns (value : α)
  | panics

/-- What the caller gets from the named worker once the work has ended. -/
def Work.result {α : Type} (worker : String) : Work α → Except Failure α
  | returns value => .ok value
  | panics => .error (.workerPanicked worker)

/-- Starts the named worker and waits for it to end the work. -/
def Work.runOn {α : Type} (worker : String) (work : Work α) :
    Except Misuse (Except Failure α) := do
  checkThreadName worker
  return work.result worker

end Courier
