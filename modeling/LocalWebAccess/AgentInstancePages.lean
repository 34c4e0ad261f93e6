import LocalWebAccess.AgentLogs
import LocalWebAccess.KeysetPages
import Mathlib.Data.String.Basic

/-!
# Pages of instances for agents

`list_instances` returns the instances in the order of their ids, and a cursor that holds the last id of the page.
An agent follows the cursors while instances come and go.
-/
namespace LocalWebAccess.AgentInstancePages
open AgentLogs KeysetPages
open AgentOperations (AgentErrorCode AgentServiceError serviceError)

/-- The columns of `instances` that a summary shows. -/
structure InstanceRow where
  id : String
  name : Option String
  kind : Option String
  runtime : Option String
  status : Option String
  revision : Option ℤ
  deriving DecidableEq, Repr

variable {scopes : List String} {limit : ℕ} {after : Option String} {times : List (List InstanceRow)}
  {out : List InstanceSummary} {id : String}

/-! ## Cursors -/

end LocalWebAccess.AgentInstancePages
