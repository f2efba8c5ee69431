import TaintReplay.Notation.Yaml.Document

/-!
# YAML — following aliases

A reader looks at some parts of a document and skips the others, and only
what it looks at must be sound: an alias is followed only where the reader
comes across it, lists and maps may be nested to any depth where they are
skipped. An `Extent` says which parts a reader looks at.

Aliases can make a small document stand for a huge one, or for one without
end. So the number of aliases that are followed is limited, to a hundred times
the size of the document, and so is the depth.
-/

namespace TaintReplay.Yaml

/-! ## Anchors and sizes -/

namespace Node

mutual

/-- The nodes with an anchor, with its number, in the order they start in
but reversed. -/
def anchors : Node → List (Nat × Node) → List (Nat × Node)
  | n@(scalar a _ _), seen => a.toList.map (·, n) ++ seen
  | n@(list a items), seen => anchorsOfItems items (a.toList.map (·, n) ++ seen)
  | n@(map a entries), seen => anchorsOfEntries entries (a.toList.map (·, n) ++ seen)
  | reference _, seen | unreadable, seen => seen

/-- Those among the items. -/
def anchorsOfItems : List Node → List (Nat × Node) → List (Nat × Node)
  | [], seen => seen
  | n :: ns, seen => anchorsOfItems ns (n.anchors seen)

/-- Those among the keys and values. -/
def anchorsOfEntries : List (Node × Node) → List (Nat × Node) → List (Nat × Node)
  | [], seen => seen
  | (k, v) :: es, seen => anchorsOfEntries es (v.anchors (k.anchors seen))

end

mutual

/-- The size of a node: one for a scalar or an alias, two more than its parts
for a list or a map. -/
def size : Node → Nat
  | list _ items => sizeOfItems items + 2
  | map _ entries => sizeOfEntries entries + 2
  | _ => 1

/-- The sizes of the items, summed up. -/
def sizeOfItems : List Node → Nat
  | [] => 0
  | n :: ns => n.size + sizeOfItems ns

/-- The sizes of the keys and values, summed up. -/
def sizeOfEntries : List (Node × Node) → Nat
  | [] => 0
  | (k, v) :: es => k.size + v.size + sizeOfEntries es

end

end Node

/-! ## Extents -/

/-- The part of a node that a reader looks at. -/
inductive Extent where
  | nothing
  | whole
  /-- The items of a list, each to the same extent. -/
  | items (each : Extent)
  /-- The keys of a map and the values of the known ones; the values of the
  others to one extent. -/
  | fields (known : List (String × Extent)) (others : Extent)

namespace Extent

/-- The part of an item that is looked at. -/
def item : Extent → Extent
  | whole => whole
  | items each => each
  | _ => nothing

/-- The part that is looked at of the value of a key. -/
def field : Extent → (key : Node) → Extent
  | whole, _ => whole
  | fields known others, .scalar _ name _ => (known.lookup name).getD others
  | _, _ => nothing

end Extent

namespace Node

/-- The node that an alias stands for, if the number of aliases that may
still be followed is not used up; any other node itself. -/
def target (table : List (Nat × Node)) : Node → StateM Nat Node
  | reference number => do
    let left ← get
    if left = 0 then return unreadable
    set (left - 1)
    return (table.lookup number).getD unreadable
  | n => return n

/-- The node with the aliases followed in the part that is looked at, down to
the given level. The rest is unreadable. -/
def resolve (table : List (Nat × Node)) : Nat → Extent → Node → StateM Nat Node
  | _, .nothing, _ => return unreadable
  | limit, extent, n => do
    match limit, ← n.target table with
    | limit + 1, list _ items =>
      return list none (← items.mapM (resolve table limit extent.item))
    | limit + 1, map _ entries =>
      return map none (← entries.mapM fun (k, v) => do
        let k ← resolve table limit .whole k
        return (k, ← resolve table limit (extent.field k) v))
    | _, scalar _ text isPlain => return scalar none text isPlain
    | _, _ => return unreadable

end Node

/-- How deep lists and maps may be nested. -/
def nestingLimit : Nat := 128

/-- The root of the only document of a text, of which a part is looked at. -/
def read? (extent : Extent) (text : String) : Option Node := do
  let root ← document? text
  return ((root.resolve (root.anchors []) nestingLimit extent).run (100 * root.size)).run.1

end TaintReplay.Yaml
