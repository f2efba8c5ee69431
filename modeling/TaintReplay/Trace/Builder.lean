import TaintReplay.Trace.Basic

/-!
# Building a path

Events are appended one to a line, at column 1 of one function, starting from
line 1 or from the line last set. A builder that has appended an event moves to
the next line. Lines are 32-bit words, so that the last one has no next; an
event that is appended there makes the count overflow, and no path is built.
-/

namespace TaintReplay

/-- A path under construction. -/
structure PathBuilder where
  path : Path
  function : String
  /-- Where the next event goes. -/
  line : UInt32 := 1

namespace PathBuilder

/-- A path with no step yet. -/
def start (id : UInt32) (function : String) : PathBuilder := { path := { id }, function }

/-- The next event goes to the given line. -/
def atLine (b : PathBuilder) (line : UInt32) : PathBuilder := { b with line }

/-- The line after a line, unless it is the last there is. -/
def nextLine? (line : UInt32) : Option UInt32 :=
  if line.toNat + 1 < UInt32.size then some (line + 1) else none

/-- Appends an event and moves to the next line, if there is one. -/
def append? (b : PathBuilder) (e : Event) : Option PathBuilder :=
  (nextLine? b.line).map fun next =>
    { b with
      path := { b.path with steps := b.path.steps ++ [⟨⟨b.function, b.line, 1⟩, e⟩] }
      line := next }

/-- Appends a call of a named function. -/
def call? (b : PathBuilder) (callee : String) (args : List Value) (ret : Value) :
    Option PathBuilder :=
  b.append? (.call ⟨some callee, args, ret⟩)

/-- Appends a call through a pointer. -/
def indirectCall? (b : PathBuilder) (args : List Value) (ret : Value) : Option PathBuilder :=
  b.append? (.call ⟨none, args, ret⟩)

/-- Appends a load. -/
def load? (b : PathBuilder) (location : Value) : Option PathBuilder :=
  b.append? (.access ⟨location, true⟩)

/-- Appends a store. -/
def store? (b : PathBuilder) (location : Value) : Option PathBuilder :=
  b.append? (.access ⟨location, false⟩)

/-- Appends a branch. -/
def branch? (b : PathBuilder) (condition : Term) (taken : Bool) : Option PathBuilder :=
  b.append? (.branch condition taken)

/-- What a builder is asked to do. -/
inductive Action where
  | atLine (line : UInt32)
  | call (callee : String) (args : List Value) (ret : Value)
  | indirectCall (args : List Value) (ret : Value)
  | load (location : Value)
  | store (location : Value)
  | branch (condition : Term) (taken : Bool)
  | event (e : Event)
deriving DecidableEq

/-- Does what is asked, unless the lines run out. -/
def perform? (b : PathBuilder) : Action → Option PathBuilder
  | .atLine line => some (b.atLine line)
  | .call callee args ret => b.call? callee args ret
  | .indirectCall args ret => b.indirectCall? args ret
  | .load location => b.load? location
  | .store location => b.store? location
  | .branch condition taken => b.branch? condition taken
  | .event e => b.append? e

/-- The path that actions build, unless the lines run out. -/
def build? (id : UInt32) (function : String) (actions : List Action) : Option Path :=
  (actions.foldlM perform? (start id function)).map (·.path)

end PathBuilder

end TaintReplay
