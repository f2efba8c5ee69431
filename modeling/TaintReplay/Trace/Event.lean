import TaintReplay.Value

/-!
# Events — what a path does at a step

A path calls a function, accesses memory, or takes a branch. The first two
carry what a checker looks at: the operands of the call, the location of the
access.
-/

namespace TaintReplay

/-- A call, with the values of its arguments and of its result. A call
through a pointer has no name. -/
structure Call where
  callee : Option String := none
  args : List Value := []
  ret : Value := .unknown
deriving DecidableEq

/-- The value of an argument; nothing is known of one that was not
passed. -/
def Call.arg (c : Call) (i : Nat) : Value := c.args.getD i .unknown

/-- A load or a store. -/
structure Access where
  location : Value
  isLoad : Bool := false
deriving DecidableEq

/-- What happens at a step of a path. -/
inductive Event where
  | call (c : Call)
  | access (a : Access)
  | branch (condition : Term) (taken : Bool)
deriving DecidableEq

end TaintReplay
