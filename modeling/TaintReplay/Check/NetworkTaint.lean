import TaintReplay.Check.Registry
import TaintReplay.Replay.Context
import TaintReplay.State.Threshold

/-!
# The network taint checker

An integer that a taint source returns is tainted. A sink is reached when a
copy function is called, the operand being its third argument, or when an
element is accessed, the operand being its index. The checker raises an alarm
there if the operand is tainted and may certainly exceed the threshold.
Whatever it cannot interpret raises none: calls through pointers, results
that are no symbol, operands that were never set.
-/

namespace TaintReplay

/-- A set of function names. -/
abbrev NameSet := Std.ExtTreeSet String

/-- What the checker listens for. -/
structure NetworkTaint where
  sources : NameSet
  copySinks : NameSet
  threshold : Threshold

namespace NetworkTaint

/-- The name it is registered and reported under. -/
def name : String := "ci.NetworkTaint"

/-- What it is for. -/
def description : String :=
  "Network-derived integers used as copy sizes or array indices without a bounds check"

/-- The argument of a copy function that is the size. -/
def copySizeArg : Nat := 2

/-- The functions that read network byte order. -/
def defaultSources : List String := ["ntohl", "ntohs"]

/-- The functions that copy memory. -/
def defaultCopySinks : List String := ["memcpy"]

/-- Whether the function copies memory. -/
def isCopySink (ch : NetworkTaint) (callee : String) : Bool := ch.copySinks.contains callee

/-- Whether the function returns integers from the network. -/
def isSource (ch : NetworkTaint) (callee : String) : Bool := ch.sources.contains callee

/-- An alarm at a sink, if the operand is tainted, may exceed the threshold,
and the point was not marked for such a sink before. -/
def checkSink (ch : NetworkTaint) (sink : Sink) (operand : Value) (c : Context) : Context :=
  if c.state.isTainted operand && c.state.exceeds ch.threshold operand then
    match c.generate c.state sink.tag with
    | some (node, c') => c'.raise ⟨node, .ofSink name sink c.point⟩
    | none => c
  else c

/-- Before a call: the size, if the callee copies memory. -/
def preCall (ch : NetworkTaint) (call : Call) (c : Context) : Context :=
  match call.callee with
  | some callee =>
    if ch.isCopySink callee then ch.checkSink .copySize (call.arg copySizeArg) c else c
  | none => c

/-- After a call: the result, if the callee is a source. -/
def postCall (ch : NetworkTaint) (call : Call) (c : Context) : Context :=
  match call.callee, call.ret.symbol? with
  | some callee, some s => if ch.isSource callee then c.transition (c.state.mark s) else c
  | _, _ => c

/-- On an access: the index, if the location is an element. -/
def location (ch : NetworkTaint) (a : Access) (c : Context) : Context :=
  match a.location.region?.bind Region.index? with
  | some .undefined | none => c
  | some index => ch.checkSink .arrayIndex index c

/-- The reaction to a notice. -/
def react (ch : NetworkTaint) : Notice → Context → Context
  | .preCall call => ch.preCall call
  | .postCall call => ch.postCall call
  | .location a => ch.location a

/-- The reaction of the handler for a kind of event: to notices of that kind,
and to no others. -/
def respond (ch : NetworkTaint) : EventKind → Notice → Context → Context
  | .preCall, .preCall call => ch.preCall call
  | .postCall, .postCall call => ch.postCall call
  | .location, .location a => ch.location a
  | _, _ => id

/-- To a notice of its kind the handler reacts as the checker does. -/
theorem respond_kind (ch : NetworkTaint) (n : Notice) (c : Context) :
    ch.respond n.kind n c = ch.react n c := by
  cases n <;> rfl

/-- A notice of another kind it ignores. -/
theorem respond_of_ne (ch : NetworkTaint) {kind : EventKind} {n : Notice} (h : n.kind ≠ kind)
    (c : Context) : ch.respond kind n c = c := by
  cases kind <;> cases n <;> simp_all [respond, Notice.kind]

/-- One handler for each kind of event. -/
def handlers (ch : NetworkTaint) : List (Handler Context) :=
  EventKind.all.map fun kind => { kind, run := ch.respond kind }

/-- The registry with the checker in it, unless it is there already. -/
def register? (ch : NetworkTaint) (r : Registry Context) : Option (Registry Context) :=
  r.add? ⟨name, description⟩ ch.handlers

end NetworkTaint

end TaintReplay
