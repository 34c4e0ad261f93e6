import LocalWebAccess.FailingEffects
import LocalWebAccess.Models
import LocalWebAccess.PythonText

/-!
# Changing the path alias of an instance

`set_instance_path_alias` with its lock held, on the fragment of the gateway, the manifest and the row of the
instance. Whatever the call reads from elsewhere, and which of its steps raise, is given to it.
-/
namespace LocalWebAccess.AliasChange
open FailingEffects

abbrev Alias := String

/-- The exceptions that the handlers tell apart. -/
inductive Raised where
  | recognition | gateway | other
  deriving DecidableEq, Repr

/-- An alias fragment is what `render_alias_fragment` was given, or it has only been written in part. -/
inductive Fragment where
  | rendered (slug : Alias) (hostPort : ℕ)
  | torn
  deriving DecidableEq, Repr

/-- A section has the alias of route mode `name`. -/
structure Manifest where
  runtime : Runtime
  static : Option Alias
  container : Option Alias
  network : Option Alias
  hostPort : Option ℕ
  desiredAlias : Option Alias
  deriving DecidableEq, Repr

/-- `routeHost` is the one of the row in the table of the runtime. -/
structure Stores where
  fragment : Option Fragment
  manifest : Manifest
  routeHost : Option Alias
  deriving DecidableEq, Repr

/-- What may raise. -/
inductive Step where
  | loading
  | forgettingWish
  | keepingWish
  | validating
  | detecting
  | fetching
  | guarding
  | reading
  | preparing
  | generating
  | removing
  | reloading
  | restoring
  | noting
  | verifying
  | restoringVerified
  | reloadingVerified
  | wishing
  | routing
  | saving
  | upserting
  | recording
  deriving DecidableEq, Repr

/-- What the steps meet. A write that raises may leave its file `torn`. -/
structure Conditions where
  raises : Step → Option Raised
  torn : Step → Bool
  caddy : Bool
  enabled : Bool

structure PathAliasResult where
  slug : Option Alias
  aliasEntryEnabled : Bool
  gatewayReloaded : Bool
  unchanged : Bool
  liveVerified : Bool
  compatCheckSkipped : Bool
  deriving DecidableEq, Repr

abbrev Effect := FailingEffects.Effect Stores Raised

namespace Manifest

/-- `_current_alias` -/
def currentAlias (m : Manifest) : Option Alias := m.static.or m.container

/-- `manifest.desiredAlias = slug` -/
def wish (m : Manifest) (slug : Option Alias) : Manifest := { m with desiredAlias := slug }

/-- `_apply_manifest_alias` -/
def applyAlias (m : Manifest) (slug : Option Alias) : Manifest :=
  match m.runtime with
  | .dockerCompose => { m with container := slug, network := slug }
  | .sharedStatic => { m with static := slug, network := slug }

/-- The alias with the wish for it. -/
def named (m : Manifest) (slug : Option Alias) : Manifest := (m.applyAlias slug).wish slug

/-- `upsert_container` or `upsert_static_site` -/
def routeHost (m : Manifest) : Option Alias :=
  match m.runtime with
  | .dockerCompose => m.container
  | .sharedStatic => m.static

end Manifest

/-- `(alias or "").strip()` -/
def stripped (slug : Option Alias) : List Char := PythonText.strip (slug.getD "").toList

/-- The wish is not the required one. -/
def Manifest.mismatches (m : Manifest) (requireDesiredAlias : Option Alias) : Bool :=
  requireDesiredAlias.isSome && stripped m.desiredAlias ≠ stripped requireDesiredAlias

section

variable (env : Conditions)

/-- A step that changes nothing here. -/
def run (step : Step) : Effect PUnit := attempt (env.raises step)

def save (step : Step) (m : Manifest) : Effect PUnit := do
  run env step
  modify fun s => { s with manifest := m }

def writeText (step : Step) (content : Fragment) : Effect PUnit :=
  tryCatch
    (do
      run env step
      modify fun s => { s with fragment := some content })
    fun raised => do
      modify fun s => { s with fragment := if env.torn step then some .torn else s.fragment }
      throw raised

def generateAliasConfig (step : Step) (slug : Alias) (hostPort : ℕ) : Effect PUnit :=
  writeText env step (.rendered slug hostPort)

/-- `if path.exists(): path.unlink()` -/
def unlink (step : Step) : Effect PUnit := do
  let s ← get
  if s.fragment.isSome then do
    run env step
    modify fun s => { s with fragment := none }

/-- `_rollback_alias_config` -/
def rollbackAliasConfig (step : Step) (previousAlias : Option Alias) (hostPort : Option ℕ)
    (previous : Option Fragment) : Effect PUnit :=
  match previous with
  | some content => writeText env step content
  | none => do
    let s ← get
    if s.fragment.isSome then unlink env step
    else
      match previousAlias, hostPort with
      | some slug, some port => generateAliasConfig env step slug port
      | _, _ => pure ⟨⟩

def writeAlias (slug : Option Alias) (hostPort : ℕ) : Effect PUnit :=
  match slug with
  | some slug => generateAliasConfig env .generating slug hostPort
  | none => unlink env .removing

/-- `_apply_gateway_alias` -/
def applyGatewayAlias (slug : Option Alias) (hostPort : Option ℕ) (previousAlias : Option Alias) (runtime : Runtime) :
    Effect (Bool × Bool) := do
  run env .preparing
  match hostPort with
  | none => pure (false, false)
  | some port =>
    if runtime = .sharedStatic ∧ env.enabled = false then pure (false, false)
    else if env.caddy then do
      let previous := (← get).fragment
      tryCatch
        (do
          writeAlias env slug port
          run env .reloading)
        fun raised => do
          if raised = .gateway then rollbackAliasConfig env .restoring previousAlias hostPort previous
          throw raised
      pure (slug.isSome, true)
    else do
      unlink env .removing
      pure (false, false)

/-- `_rollback_alias_after_failed_live_verify` -/
def rollbackAliasAfterFailedLiveVerify (previousAlias : Option Alias) (hostPort : Option ℕ)
    (previous : Option Fragment) : Effect PUnit :=
  tryCatch
    (do
      rollbackAliasConfig env .restoringVerified previousAlias hostPort previous
      run env .reloadingVerified)
    fun raised => if raised = .gateway then pure ⟨⟩ else throw raised

/-- The live verification of an entry: whether it has been verified, or skipped. -/
def verifyAlias (m : Manifest) (slug : Alias) (skipCompatCheck : Bool) (previous : Option Fragment) :
    Effect (Bool × Bool) :=
  if skipCompatCheck then do
    run env .noting
    pure (false, true)
  else do
    tryCatch (run env .verifying) fun raised => do
      if raised = .recognition then do
        rollbackAliasAfterFailedLiveVerify env m.currentAlias m.hostPort previous
        suppress (save env .wishing (m.wish (some slug)))
      throw raised
    pure (true, false)

/-- Only the entry of a new alias is verified, once the gateway has it. -/
def verifyChanged (m : Manifest) (slug : Option Alias) (reloaded skipCompatCheck : Bool)
    (previous : Option Fragment) : Effect (Bool × Bool) :=
  match slug with
  | some slug => if reloaded then verifyAlias env m slug skipCompatCheck previous else pure (false, false)
  | none => pure (false, false)

/-- The manifest and the row. -/
def persistAlias (m : Manifest) (slug : Option Alias) : Effect PUnit := do
  run env .routing
  save env .saving (m.named slug)
  run env .upserting
  modify fun s => { s with routeHost := (m.named slug).routeHost }
  run env .recording

/-- What follows when a changed alias has been accepted. -/
def changeAlias (m : Manifest) (slug : Option Alias) (skipCompatCheck : Bool) : Effect PathAliasResult := do
  run env .reading
  let previous := (← get).fragment
  let (entryEnabled, reloaded) ← applyGatewayAlias env slug m.hostPort m.currentAlias m.runtime
  let (verified, skipped) ← verifyChanged env m slug reloaded skipCompatCheck previous
  persistAlias env m slug
  pure ⟨slug, entryEnabled, reloaded, false, verified, skipped⟩

/-- The checks of a new alias. -/
def checkAlias : Effect PUnit := do
  run env .validating
  run env .detecting
  if env.caddy = false then throw .recognition

/-- The entry page is guarded. -/
def guardAlias : Effect PUnit := do
  run env .fetching
  run env .guarding

/-- An alias can always be cleared. -/
def admitAlias (slug : Option Alias) : Effect PUnit :=
  if slug.isSome then do
    checkAlias env
    guardAlias env
  else pure ⟨⟩

/-- To clear the alias is not to wish for one. -/
def forgetWish (m : Manifest) (slug : Option Alias) : Effect Manifest :=
  if slug = none ∧ m.desiredAlias.any (fun wish => wish ≠ "") then do
    suppress (save env .forgettingWish (m.wish none))
    pure (m.wish none)
  else pure m

/-- The instance already has the alias. -/
def keepAlias (m : Manifest) (slug : Option Alias) : Effect PathAliasResult := do
  if slug.isSome ∧ stripped m.desiredAlias ≠ (slug.getD "").toList then suppress (save env .keepingWish (m.wish slug))
  pure ⟨m.currentAlias, false, false, true, true, false⟩

/-- The rest of the call after the checks of the wish. -/
def setAlias (m : Manifest) (slug : Option Alias) (skipCompatCheck : Bool) : Effect PathAliasResult :=
  if slug = m.currentAlias then keepAlias env m slug
  else do
    admitAlias env slug
    changeAlias env m slug skipCompatCheck

/-- `_set_instance_path_alias_locked` -/
def setInstancePathAliasLocked (slug : Option Alias) (skipCompatCheck : Bool) (requireDesiredAlias : Option Alias) :
    Effect PathAliasResult := do
  run env .loading
  let m := (← get).manifest
  if m.mismatches requireDesiredAlias then pure ⟨m.currentAlias, false, false, true, true, false⟩
  else do
    let m ← forgetWish env m slug
    setAlias env m slug skipCompatCheck

end

end LocalWebAccess.AliasChange
