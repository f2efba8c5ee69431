import TaintReplay.Notation.Yaml.Token

/-!
# YAML — from tokens to a document

The tokens are taken one by one, with the lists and maps that are open kept
on a stack of frames; a frame says what was read of its list or map and what
may come next. Many parts may be left out, and a part left out shows only by
the token that comes instead of it. So a token is first allowed to complete
what it shows to be complete (`settle`), with empty scalars where something
was left out, and then read (`Loader.feed`).

An anchor puts a name on a node, an alias stands for the node. Names are
numbered as they come: a name gets the number of the names known when it is
put, and an alias means the node that got the number of its name last.
-/

namespace TaintReplay.Yaml

/-- A node of a document; the first field is the number of its anchor. -/
inductive Node where
  | scalar (anchor : Option Nat) (text : String) (isPlain : Bool)
  | list (anchor : Option Nat) (items : List Node)
  | map (anchor : Option Nat) (entries : List (Node × Node))
  /-- The node with the numbered anchor. -/
  | reference (number : Nat)
  /-- A node that may only be skipped. -/
  | unreadable
deriving Inhabited

/-- The node where none is written. -/
def Node.empty (anchor : Option Nat := none) : Node := .scalar anchor "" true

/-- An open part of a document: what was read of it, in reverse, and what may
come next. -/
inductive Frame where
  /-- The start of the stream: a document mark, or the root. -/
  | stream
  /-- After the mark: the root. -/
  | content
  /-- After the root: a closing mark, or the end. -/
  | complete (root : Node) (closed : Bool)
  /-- A block list: a dash, or the end. -/
  | items (anchor : Option Nat) (read : List Node)
  /-- After the dash: the item. -/
  | item (anchor : Option Nat) (read : List Node)
  /-- A block list at the indentation of the map it stands in, which no token
  ends: a dash, or anything else. -/
  | flushItems (anchor : Option Nat) (read : List Node)
  /-- After the dash of such a list: the item. -/
  | flushItem (anchor : Option Nat) (read : List Node)
  /-- A block map: a key sign, or the end. -/
  | keys (anchor : Option Nat) (read : List (Node × Node))
  /-- After the sign: the key. -/
  | key (anchor : Option Nat) (read : List (Node × Node))
  /-- After the key: a value sign. -/
  | colon (anchor : Option Nat) (read : List (Node × Node)) (key : Node)
  /-- After that sign: the value. -/
  | value (anchor : Option Nat) (read : List (Node × Node)) (key : Node)
  /-- A list in brackets: an item, or the end. -/
  | flowItems (anchor : Option Nat) (read : List Node)
  /-- After the item: a comma, or the end. -/
  | flowItemEnd (anchor : Option Nat) (read : List Node)
  /-- A list in brackets, a key sign read in it: the key of a single pair. -/
  | pairKey (anchor : Option Nat) (read : List Node)
  /-- After the key of the pair: a value sign. -/
  | pairColon (anchor : Option Nat) (read : List Node) (key : Node)
  /-- After that sign: the value of the pair. -/
  | pairValue (anchor : Option Nat) (read : List Node) (key : Node)
  /-- A map in braces: a key sign, a lone key, or the end. -/
  | flowKeys (anchor : Option Nat) (read : List (Node × Node))
  /-- After the entry: a comma, or the end. -/
  | flowEntryEnd (anchor : Option Nat) (read : List (Node × Node))
  /-- After the key sign: the key. -/
  | flowKey (anchor : Option Nat) (read : List (Node × Node))
  /-- After the key: a value sign. -/
  | flowColon (anchor : Option Nat) (read : List (Node × Node)) (key : Node)
  /-- After that sign: the value. -/
  | flowValue (anchor : Option Nat) (read : List (Node × Node)) (key : Node)
  /-- After an anchor: the node it is put on. -/
  | anchored (number : Nat)

namespace Frame

/-- The frame after the node that it was waiting for. -/
def receive (n : Node) : Frame → Frame
  | stream | content => complete n false
  | item a read => items a (n :: read)
  | flushItem a read => flushItems a (n :: read)
  | key a read => colon a read n
  | value a read k => keys a ((k, n) :: read)
  | flowItems a read => flowItemEnd a (n :: read)
  | pairKey a read => pairColon a read n
  | pairValue a read k => flowItemEnd a (.map none [(k, n)] :: read)
  | flowKeys a read => flowEntryEnd a ((n, .empty) :: read)
  | flowKey a read => flowColon a read n
  | flowValue a read k => flowEntryEnd a ((k, n) :: read)
  | f => f

/-- Whether the frame waits for a node. -/
def awaitsNode : Frame → Bool
  | stream | content | item .. | flushItem .. | key .. | value .. | flowItems .. | pairKey ..
  | pairValue .. | flowKeys .. | flowKey .. | flowValue .. | anchored _ => true
  | _ => false

/-- Whether the node it waits for may be a block list or map. -/
def allowsBlock : Frame → Bool
  | stream | content | item .. | flushItem .. | key .. | value .. => true
  | _ => false

/-- Whether the node it waits for may be a block list without indentation of
its own. -/
def allowsFlush : Frame → Bool
  | key .. | value .. => true
  | _ => false

end Frame

/-- Hands a node to the innermost frame. -/
def deliver (n : Node) : List Frame → List Frame
  | f :: fs => f.receive n :: fs
  | [] => []

@[simp] theorem length_deliver (n : Node) (fs : List Frame) :
    (deliver n fs).length = fs.length := by
  cases fs <;> rfl

/-- Whether a token starts a node that the innermost frame may hold. -/
def startsNode (t : Token) (fs : List Frame) : Bool :=
  match t with
  | .scalar .. | .flowListStart | .flowMapStart => true
  | .blockListStart | .blockMapStart => fs.head?.any Frame.allowsBlock
  | .dash => fs.head?.any Frame.allowsFlush
  | _ => false

/-- The frames once everything is complete that the token shows to be. -/
def settle (t : Token) : List Frame → List Frame
  | .anchored n :: fs =>
    if startsNode t fs then .anchored n :: fs else settle t (deliver (.empty n) fs)
  | .content :: fs =>
    if t = .documentStart ∨ t = .documentEnd ∨ t = .streamEnd then .complete .empty false :: fs
    else .content :: fs
  | .item a read :: fs =>
    if t = .dash ∨ t = .blockEnd then .items a (.empty :: read) :: fs else .item a read :: fs
  | .flushItems a read :: fs =>
    if t = .dash then .flushItems a read :: fs
    else settle t (deliver (.list a read.reverse) fs)
  | .flushItem a read :: fs =>
    if t = .dash then .flushItems a (.empty :: read) :: fs
    else if t = .key ∨ t = .value ∨ t = .blockEnd then
      settle t (deliver (.list a (Node.empty :: read).reverse) fs)
    else .flushItem a read :: fs
  | .key a read :: fs =>
    if t = .value then .colon a read .empty :: fs
    else if t = .key ∨ t = .blockEnd then .keys a ((.empty, .empty) :: read) :: fs
    else .key a read :: fs
  | .colon a read k :: fs =>
    if t = .value then .colon a read k :: fs else .keys a ((k, .empty) :: read) :: fs
  | .value a read k :: fs =>
    if t = .key ∨ t = .value ∨ t = .blockEnd then .keys a ((k, .empty) :: read) :: fs
    else .value a read k :: fs
  | .pairColon a read k :: fs =>
    if t = .value then .pairColon a read k :: fs
    else .flowItemEnd a (.map none [(k, .empty)] :: read) :: fs
  | .pairValue a read k :: fs =>
    if t = .comma ∨ t = .flowListEnd then .flowItemEnd a (.map none [(k, .empty)] :: read) :: fs
    else .pairValue a read k :: fs
  | .flowKey a read :: fs =>
    if t = .value then .flowColon a read .empty :: fs
    else if t = .comma ∨ t = .flowMapEnd then .flowEntryEnd a ((.empty, .empty) :: read) :: fs
    else .flowKey a read :: fs
  | .flowColon a read k :: fs =>
    if t = .value then .flowColon a read k :: fs
    else .flowEntryEnd a ((k, .empty) :: read) :: fs
  | .flowValue a read k :: fs =>
    if t = .comma ∨ t = .flowMapEnd then .flowEntryEnd a ((k, .empty) :: read) :: fs
    else .flowValue a read k :: fs
  | fs => fs
termination_by fs => fs.length
decreasing_by all_goals simp

/-- A document in the course of its reading: the open frames, innermost
first, and the names put so far with their numbers. -/
structure Loader where
  frames : List Frame := [.stream]
  names : List (String × Nat) := []

namespace Loader

/-- The frames after the token that starts a node with the given anchor. -/
def startNode (l : Loader) (t : Token) (anchor : Option Nat) (fs : List Frame) : Option Loader :=
  match t with
  | .scalar text isPlain => some { l with frames := deliver (.scalar anchor text isPlain) fs }
  | .flowListStart => some { l with frames := .flowItems anchor [] :: fs }
  | .flowMapStart => some { l with frames := .flowKeys anchor [] :: fs }
  | .blockListStart => some { l with frames := .items anchor [] :: fs }
  | .blockMapStart => some { l with frames := .keys anchor [] :: fs }
  | .dash => some { l with frames := .flushItem anchor [] :: fs }
  | _ => none

/-- A node where one is awaited: an alias, an anchor, or the token that
starts it. -/
def node (l : Loader) (t : Token) (fs : List Frame) : Option Loader :=
  match t, fs with
  | t, .anchored n :: fs => if startsNode t fs then l.startNode t (some n) fs else none
  | .reference name, fs =>
    (l.names.lookup name).map fun n => { l with frames := deliver (.reference n) fs }
  | .anchor name, fs =>
    let n := l.names.length
    some
      { frames := .anchored n :: fs
        names := (name, n) :: l.names.filter (·.1 != name) }
  | t, fs => if startsNode t fs then l.startNode t none fs else none

/-- The document after one more token. -/
def feed (l : Loader) (t : Token) : Option Loader :=
  let goOn (fs : List Frame) : Option Loader := some { l with frames := fs }
  match settle t l.frames, t with
  | .stream :: fs, .documentStart => goOn (.content :: fs)
  | .stream :: fs, .streamEnd => goOn (.complete .empty true :: fs)
  | .complete root _ :: fs, .documentEnd => goOn (.complete root true :: fs)
  | .complete root closed :: fs, .streamEnd => goOn (.complete root closed :: fs)
  | .items a read :: fs, .dash => goOn (.item a read :: fs)
  | .items a read :: fs, .blockEnd => goOn (deliver (.list a read.reverse) fs)
  | .flushItems a read :: fs, .dash => goOn (.flushItem a read :: fs)
  | .keys a read :: fs, .key => goOn (.key a read :: fs)
  | .keys a read :: fs, .blockEnd => goOn (deliver (.map a read.reverse) fs)
  | .colon a read k :: fs, .value => goOn (.value a read k :: fs)
  | .flowItems a read :: fs, .flowListEnd => goOn (deliver (.list a read.reverse) fs)
  | .flowItems a read :: fs, .key => goOn (.pairKey a read :: fs)
  | .flowItemEnd a read :: fs, .comma => goOn (.flowItems a read :: fs)
  | .flowItemEnd a read :: fs, .flowListEnd => goOn (deliver (.list a read.reverse) fs)
  | .pairKey a read :: fs, .value => goOn (.pairColon a read .empty :: fs)
  | .pairKey a read :: fs, .comma => goOn (.pairColon a read .empty :: fs)
  | .pairKey a read :: fs, .flowListEnd => goOn (.pairColon a read .empty :: fs)
  | .pairColon a read k :: fs, .value => goOn (.pairValue a read k :: fs)
  | .flowKeys a read :: fs, .flowMapEnd => goOn (deliver (.map a read.reverse) fs)
  | .flowKeys a read :: fs, .key => goOn (.flowKey a read :: fs)
  | .flowEntryEnd a read :: fs, .comma => goOn (.flowKeys a read :: fs)
  | .flowEntryEnd a read :: fs, .flowMapEnd => goOn (deliver (.map a read.reverse) fs)
  | .flowColon a read k :: fs, .value => goOn (.flowValue a read k :: fs)
  | f :: fs, t => if f.awaitsNode then l.node t (f :: fs) else none
  | [], _ => none

/-- The root, of a document that is complete. -/
def finish (l : Loader) : Option Node :=
  match l.frames with
  | [.complete root _] => some root
  | _ => none

end Loader

/-- The root of the only document of a text, aliases and all. -/
def document? (text : String) : Option Node := do
  let tokens ← tokens? (← characters? text)
  (← tokens.foldlM Loader.feed {}).finish

end TaintReplay.Yaml
