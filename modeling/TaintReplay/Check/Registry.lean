import TaintReplay.Trace.Event

/-!
# The checker registry

Checkers listen to events: before a call, after it, and on an access. A
registry holds the accepted checkers in order and, for each kind of event,
the handlers they brought, in order. It knows nothing of the context that
handlers work on.
-/

namespace TaintReplay

/-- What a checker can listen to. -/
inductive EventKind where
  | preCall
  | postCall
  | location
deriving DecidableEq

namespace EventKind

/-- All kinds, in the order they arise in. -/
def all : List EventKind := [preCall, postCall, location]

end EventKind

/-- What a handler is given. -/
inductive Notice where
  | preCall (c : Call)
  | postCall (c : Call)
  | location (a : Access)
deriving DecidableEq

/-- The kind of a notice. -/
def Notice.kind : Notice → EventKind
  | preCall _ => .preCall
  | postCall _ => .postCall
  | location _ => .location

theorem Notice.kind_eq_preCall_iff {n : Notice} : n.kind = .preCall ↔ ∃ c, n = .preCall c := by
  cases n <;> simp [kind]

theorem Notice.kind_eq_postCall_iff {n : Notice} : n.kind = .postCall ↔ ∃ c, n = .postCall c := by
  cases n <;> simp [kind]

theorem Notice.kind_eq_location_iff {n : Notice} : n.kind = .location ↔ ∃ a, n = .location a := by
  cases n <;> simp [kind]

/-- What a registry tells of a checker. -/
structure CheckerInfo where
  name : String
  description : String
deriving DecidableEq

/-- A reaction of a checker to a kind of event. -/
structure Handler (γ : Type u) where
  kind : EventKind
  run : Notice → γ → γ

/-- The accepted checkers, and their handlers by kind of event. -/
structure Registry (γ : Type u) where
  checkers : List CheckerInfo := []
  handlers : EventKind → List (Notice → γ → γ) := fun _ => []

namespace Registry

variable {γ : Type u}

/-- The registry without a checker. -/
def empty : Registry γ := {}

/-- Whether a checker of that name is registered. -/
def contains (r : Registry γ) (name : String) : Bool := r.checkers.any (·.name == name)

/-- Files a handler last under its kind. -/
def file (handlers : EventKind → List (Notice → γ → γ)) (h : Handler γ) :
    EventKind → List (Notice → γ → γ) :=
  fun k => if k = h.kind then handlers k ++ [h.run] else handlers k

/-- The registry with one more checker, unless its name is taken. -/
def add? (r : Registry γ) (info : CheckerInfo) (handlers : List (Handler γ)) :
    Option (Registry γ) :=
  if r.contains info.name then none
  else some
    { checkers := r.checkers ++ [info]
      handlers := handlers.foldl file r.handlers }

/-- Runs the handlers of the notice's kind, in order. -/
def dispatch (r : Registry γ) (n : Notice) (context : γ) : γ :=
  (r.handlers n.kind).foldl (fun c run => run n c) context

/-- How many handlers listen to a kind of event. -/
def handlerCount (r : Registry γ) (k : EventKind) : Nat := (r.handlers k).length

end Registry

end TaintReplay
