import Courier.Event.Id
import Courier.Settings.Basic

/-!
# Failures

What can go wrong with a request, by cause. Every failure has a kind, which says whose fault it
is, and a message: the words of the kind and the details of the cause.
-/

namespace Courier

/-- The parts of the library that can be disposed. -/
inductive Component where
  | alarm
  | mailbox
  | collector
deriving DecidableEq

/-- The name under which a component is reported. -/
def Component.name : Component → String
  | alarm => "ScheduledTimer"
  | mailbox => "AckQueue"
  | collector => "PeriodicBatcher"

/-- Whose fault a failure is. -/
inductive Failure.Kind where
  | invalidArgument
  | invalidSettings
  | disposed
  | internal
deriving DecidableEq

/-- The words with which messages of a kind begin. -/
def Failure.Kind.words : Failure.Kind → String
  | invalidArgument => "invalid argument"
  | invalidSettings => "invalid configuration"
  | disposed => "object disposed"
  | internal => "internal error"

/-- Why a request failed. -/
inductive Failure where
  /-- The clock cannot show the instant at which the interval ends. -/
  | intervalOutOfRange (interval : Span)
  /-- An event with this identifier is available or handed out. -/
  | alreadyTracked (id : Event.Id)
  /-- A limit of zero leaves no room for anything. -/
  | zeroLimit
  /-- The settings of a mailbox are unusable. -/
  | queueSettings (defect : QueueSettings.Defect)
  /-- The settings of a collector are unusable. -/
  | batchSettings (defect : BatchSettings.Defect)
  /-- Some part of the settings is unusable. -/
  | settings (defect : Settings.Defect)
  /-- The component takes no more requests. -/
  | disposed (component : Component)
  /-- The work handed to the named worker panicked. -/
  | workerPanicked (worker : String)
  /-- A failure that a caller words itself. -/
  | worded (kind : Failure.Kind) (details : String)
deriving DecidableEq

namespace Failure

/-- Whose fault the failure is. -/
def kind : Failure → Kind
  | intervalOutOfRange _ | alreadyTracked _ | zeroLimit => .invalidArgument
  | queueSettings _ | batchSettings _ | settings _ => .invalidSettings
  | disposed _ => .disposed
  | workerPanicked _ => .internal
  | worded kind _ => kind

/-- The details of the cause. -/
def details : Failure → String
  | intervalOutOfRange interval => "timer interval " ++ interval.render ++ " is out of range"
  | alreadyTracked id => "event " ++ id.toString ++ " is already tracked by this queue"
  | zeroLimit => "queue limit must be greater than 0"
  | queueSettings defect => defect.text
  | batchSettings defect => defect.text
  | settings defect => "config invalid: " ++ defect.text
  | disposed component => component.name
  | workerPanicked worker => worker ++ " panicked"
  | worded _ details => details

/-- The whole message. -/
def message (f : Failure) : String := f.kind.words ++ ": " ++ f.details

end Failure
end Courier
