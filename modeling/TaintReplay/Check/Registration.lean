import TaintReplay.Check.Registry
import TaintReplay.Error

/-!
# Registrations

A checker asks to be registered with what is told of it and the handlers it
brings. It is told whether it was accepted; a name that is taken is refused,
and the registry then stays as it is.
-/

namespace TaintReplay

/-- What a checker asks to be registered with. -/
structure Registration (γ : Type u) where
  info : CheckerInfo
  handlers : List (Handler γ) := []

namespace Registry

variable {γ : Type u}

/-- Serves a registration: the answer, and the registry after it. -/
def register (r : Registry γ) (c : Registration γ) : Except Error Unit × Registry γ :=
  match r.add? c.info c.handlers with
  | some r => (.ok (), r)
  | none => (.error (.duplicateChecker c.info.name), r)

end Registry

end TaintReplay
