import Courier.Settings.EnvFile
import Courier.Settings.Json

/-!
# Settings from the environment

Seven variables change settings away from their defaults. They are read in the order of
`Variable.all`; the first value that cannot be read is reported with the name of its variable,
and only then the settings as a whole are checked.
-/

namespace Courier.Settings

/-- The variables that change settings. -/
inductive Variable where
  | autoRequeue
  | ackTimeoutMs
  | requeuePeriodMs
  | queueLimit
  | batchSizeLimit
  | batchPeriodMs
  | batchQueueLimit
deriving DecidableEq

namespace Variable

/-- The variables in the order in which they are read. -/
def all : List Variable :=
  [autoRequeue, ackTimeoutMs, requeuePeriodMs, queueLimit, batchSizeLimit, batchPeriodMs,
    batchQueueLimit]

/-- The name of a variable in the environment. -/
def name : Variable → String
  | autoRequeue => "DELIVERY_AUTO_REQUEUE"
  | ackTimeoutMs => "DELIVERY_ACK_TIMEOUT_MS"
  | requeuePeriodMs => "DELIVERY_REQUEUE_PERIOD_MS"
  | queueLimit => "DELIVERY_QUEUE_LIMIT"
  | batchSizeLimit => "DELIVERY_BATCH_SIZE_LIMIT"
  | batchPeriodMs => "DELIVERY_BATCH_PERIOD_MS"
  | batchQueueLimit => "DELIVERY_BATCH_QUEUE_LIMIT"

end Variable

/-- Why the text of a variable cannot be read. -/
inductive ValueFault where
  | notATruthValue
  | empty
  | notADigit
  | tooLarge
deriving DecidableEq

/-- What a fault says. -/
def ValueFault.text : ValueFault → String
  | notATruthValue => "provided string was not \x60true\x60 or \x60false\x60"
  | empty => "cannot parse integer from empty string"
  | notADigit => "invalid digit found in string"
  | tooLarge => "number too large to fit in target type"

/-- Reads a truth value. -/
def readBool (text : List Char) : Except ValueFault Bool :=
  if text = "true".toList then .ok true
  else if text = "false".toList then .ok false
  else .error .notATruthValue

/-- Reads decimal digits behind the number `n`; the first character that is no digit or makes the
number too large decides. -/
def readDigits (n : Nat) : List Char → Except ValueFault UInt64
  | [] => .ok (UInt64.ofNat n)
  | c :: rest =>
    if ¬ c.isDigit then .error .notADigit
    else
      let n := 10 * n + (c.toNat - '0'.toNat)
      if n < UInt64.size then readDigits n rest else .error .tooLarge

/-- Reads a number of 64 bits, with a plus in front if one likes. -/
def readNumber : List Char → Except ValueFault UInt64
  | [] => .error .empty
  | ['+'] => .error .notADigit
  | '+' :: digits => readDigits 0 digits
  | digits => readDigits 0 digits

/-- Sets what a variable stands for. -/
def set (s : Settings) (v : Variable) (text : List Char) : Except ValueFault Settings :=
  match v with
  | .autoRequeue => do
    let value ← readBool text
    return { s with queue := { s.queue with autoRequeue := value } }
  | .ackTimeoutMs => do
    let value ← readNumber text
    return { s with queue := { s.queue with ackTimeoutMs := value } }
  | .requeuePeriodMs => do
    let value ← readNumber text
    return { s with queue := { s.queue with requeuePeriodMs := value } }
  | .queueLimit => do
    let value ← readNumber text
    return { s with queue := { s.queue with queueLimit := some value } }
  | .batchSizeLimit => do
    let value ← readNumber text
    return { s with batching := { s.batching with batchSizeLimit := value } }
  | .batchPeriodMs => do
    let value ← readNumber text
    return { s with batching := { s.batching with periodMs := value } }
  | .batchQueueLimit => do
    let value ← readNumber text
    return { s with batching := { s.batching with queueLimit := some value } }

/-- Why the environment yields no settings. -/
inductive EnvironmentFailure where
  | unreadable (v : Variable) (fault : ValueFault)
  | unusable (defect : Defect)
deriving DecidableEq

/-- What a failure says. -/
def EnvironmentFailure.text : EnvironmentFailure → String
  | unreadable v fault => v.name ++ ": " ++ fault.text
  | unusable defect => defect.text

/-- Sets what the given variables stand for, if they are assigned. White space around a value does
not count. -/
def readVariables (env : Environment) (s : Settings) :
    List Variable → Except EnvironmentFailure Settings
  | [] => .ok s
  | v :: rest =>
    match env.get? v.name with
    | none => readVariables env s rest
    | some value =>
      match s.set v (Text.trim value.toList) with
      | .ok s => readVariables env s rest
      | .error fault => .error (.unreadable v fault)

/-- The settings that an environment stands for, if they are usable. -/
def ofEnvironment (env : Environment) : Except EnvironmentFailure Settings :=
  match readVariables env {} Variable.all with
  | .error failure => .error failure
  | .ok s => s.check.mapError .unusable

/-- The settings that an environment stands for once a file of assignments, if there is one, has
been added to it. -/
def ofEnvironmentAndFile (env : Environment) (file : Option String) :
    Except Misuse (Except EnvironmentFailure Settings) :=
  match file with
  | none => .ok (ofEnvironment env)
  | some text => (EnvFile.load env text).map ofEnvironment

end Courier.Settings
