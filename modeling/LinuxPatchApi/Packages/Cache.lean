/-
`src/packages/cache.rs`: when the package cache was refreshed, and when it counts as stale. Instants are
nanoseconds since the epoch.
-/
import LinuxPatchApi.Packages.ErrorUtils

namespace LinuxPatchApi.Packages

/-- `PackageCacheState`, with the fields behind its mutex. -/
structure PackageCacheState where
  lastUpdate : Option Nat
  lastUpdateSuccess : Bool
  lastUpdateError : Option String
  staleThresholdSecs : UInt64
  jitterSecs : UInt64
  deriving DecidableEq, Repr

namespace PackageCacheState

/-- The sum saturates. -/
def effectiveThresholdSecs (c : PackageCacheState) : Nat :=
  min (c.staleThresholdSecs.toNat + c.jitterSecs.toNat) (2 ^ 64 - 1)

def nanosPerSec : Nat := 1000000000

/-- `TimeDelta::MAX`, the greatest number of milliseconds, which takes the place of a threshold beyond it. -/
def maxTimeDelta : Nat := 9223372036854775807 * 1000000

/-- A clock that was set back before the last update makes nothing stale. -/
def isStale (c : PackageCacheState) (now : Nat) : Bool :=
  match c.lastUpdate with
  | none => true
  | some t => decide (now - t > min (c.effectiveThresholdSecs * nanosPerSec) maxTimeDelta)

def updateSuccess (c : PackageCacheState) (now : Nat) : PackageCacheState :=
  { c with lastUpdate := some now, lastUpdateSuccess := true, lastUpdateError := none }

/-- A failed first attempt leaves its instant as that of the last update. -/
def updateFailure (c : PackageCacheState) (now : Nat) (error : String) : PackageCacheState :=
  { c with lastUpdate := some (c.lastUpdate.getD now), lastUpdateSuccess := false, lastUpdateError := some error }

end PackageCacheState

end LinuxPatchApi.Packages
