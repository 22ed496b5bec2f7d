import Dialogue.Config.Basic
import Dialogue.Event
/-!
# Resolution, reported

Resolving a configuration reports a context that had to be raised.
-/

namespace Dialogue.Config

/-- What is reported when the configuration is resolved. Part of `ContextConfig.resolve`. -/
def resolutionEvents (c : Config) : List Event :=
  if c.isTooSmall then [.contextRaised c.contextSize] else []

/-- The resolved configuration and what is reported of it. Follows `ContextConfig.resolve`. -/
def resolveReported (now : Nat) (c : Config) : Except ConfigError (Config × List Event) :=
  (c.resolve now).map fun resolved => (resolved, c.resolutionEvents)

/-- A configuration is resolved alike whether that is reported or not. -/
theorem resolve_of_resolveReported {now : Nat} {c r : Config} {events : List Event}
    (h : c.resolveReported now = .ok (r, events)) : c.resolve now = .ok r := by
  unfold resolveReported at h
  cases hr : c.resolve now with
  | error e =>
    rw [hr] at h
    cases h
  | ok resolved =>
    rw [hr] at h
    cases h
    rfl

/-- A change that neither decides whether a configuration is rejected nor what follows from it can
be made before it is resolved or afterwards. -/
theorem resolveReported_of_commutes {now : Nat} {c : Config} (f : Config → Config)
    (hbatch : (f c).batchSize = 0 ↔ c.batchSize = 0)
    (hscale : (f c).guidanceScale = c.guidanceScale)
    (hcompleted : (f c).completed now = f (c.completed now))
    (hevents : (f c).resolutionEvents = c.resolutionEvents) :
    (f c).resolveReported now = (c.resolveReported now).map fun r => (f r.1, r.2) := by
  rw [resolveReported, resolveReported, resolve_eq, resolve_eq, hscale, hcompleted, hevents]
  simp only [hbatch]
  split
  · rfl
  · split <;> rfl

end Dialogue.Config
