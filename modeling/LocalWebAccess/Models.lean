import Mathlib.Data.Nat.Notation

/-!
# Statuses and exceptions

The statuses of an instance with the strings that the manifest and the registry
keep, its desired states and runtimes, and the exceptions that the hosting code
tells apart.
-/
namespace LocalWebAccess

inductive Status where
  | pending
  | building
  | running
  | stopped
  | failed
  | queued
  | cancelling
  | cancelled
  | gatewayDown
  | configInvalid
  | verifying
  | degraded
  deriving DecidableEq, Repr

namespace Status

def value : Status → String
  | pending => "pending"
  | building => "building"
  | running => "running"
  | stopped => "stopped"
  | failed => "failed"
  | queued => "queued"
  | cancelling => "cancelling"
  | cancelled => "cancelled"
  | gatewayDown => "gateway_down"
  | configInvalid => "config_invalid"
  | verifying => "verifying"
  | degraded => "degraded"

def all : List Status :=
  [pending, building, running, stopped, failed, queued, cancelling, cancelled, gatewayDown,
    configInvalid, verifying, degraded]

/-- `Status(value)`, or `none` for a `ValueError`. -/
def ofValue (value : String) : Option Status := all.find? (fun status => status.value = value)

end Status

/-- What the user wants of an instance. -/
inductive DesiredState where
  | running
  | stopped
  deriving DecidableEq, Repr

inductive Runtime where
  | sharedStatic
  | dockerCompose
  deriving DecidableEq, Repr

namespace Runtime

def value : Runtime → String
  | sharedStatic => "shared-static"
  | dockerCompose => "docker-compose"

def ofValue (value : String) : Option Runtime :=
  [sharedStatic, dockerCompose].find? (fun runtime => runtime.value = value)

end Runtime

/-- The classes of exceptions that some handler names, with their messages. -/
inductive Exn where
  | docker (message : String)
  | hosting (message : String)
  | lifecycle (message : String)
  | buildCancelled (message : String)
  | os (message : String)
  | other (message : String)
  deriving DecidableEq, Repr

namespace Exn

/-- `LwaError.__str__`. -/
def coded (code message : String) : String :=
  if message = "" then s!"[{code}]" else s!"[{code}] {message}"

/-- `str(exc)`. -/
def str : Exn → String
  | docker message => coded "DOCKER_ERROR" message
  | hosting message => coded "HOSTING_ERROR" message
  | lifecycle message => coded "LIFECYCLE_ERROR" message
  | buildCancelled message => coded "BUILD_CANCELLED" message
  | os message => message
  | other message => message

def cancels : Exn → Bool
  | buildCancelled _ => true
  | _ => false

end Exn

/-- An exception other than a cancelled build, which only logged Compose commands raise. -/
def Failure : Type := {exc : Exn // exc.cancels = false}

end LocalWebAccess
