/-!
# Data — what a document says, whatever its notation

Both notations for traces write the same few kinds of value: null, truth
values, numbers, text, lists, and maps of keys to values. A `Data` keeps maps
as they were written, in order and with repeated keys, since a repeated key is
for the reader of the map to refuse. Two leaves stand for what is there but
cannot be used: a number that is no integer, and a part that cannot be read at
all and may only be skipped.
-/

namespace TaintReplay

/-- A value in a document. -/
inductive Data where
  | null
  | bool (b : Bool)
  | int (n : Int)
  /-- Zero with a minus sign in front: an integer, but no position. -/
  | minusZero
  /-- A number that is no integer. -/
  | real
  | text (s : String)
  | list (items : List Data)
  | map (entries : List (Data × Data))
  /-- A part that may only be skipped. -/
  | unreadable
deriving Inhabited

namespace Data

/-- A map with names for keys. -/
def record (fields : List (String × Data)) : Data :=
  map (fields.map fun (name, v) => (text name, v))

mutual

/-- How deep lists and maps are nested. -/
def depth : Data → Nat
  | list items => depthOfItems items + 1
  | map entries => depthOfEntries entries + 1
  | _ => 0

/-- The greatest depth among the items. -/
def depthOfItems : List Data → Nat
  | [] => 0
  | d :: ds => max d.depth (depthOfItems ds)

/-- The greatest depth among the keys and values. -/
def depthOfEntries : List (Data × Data) → Nat
  | [] => 0
  | (k, v) :: es => max (max k.depth v.depth) (depthOfEntries es)

end

mutual

/-- The value with every list and map below the given level made
unreadable. -/
def truncate (limit : Nat) : Data → Data
  | list items => if limit = 0 then unreadable else list (truncateItems (limit - 1) items)
  | map entries => if limit = 0 then unreadable else map (truncateEntries (limit - 1) entries)
  | null => null
  | bool b => bool b
  | int n => int n
  | minusZero => minusZero
  | real => real
  | text s => text s
  | unreadable => unreadable

/-- Truncates each item. -/
def truncateItems (limit : Nat) : List Data → List Data
  | [] => []
  | d :: ds => d.truncate limit :: truncateItems limit ds

/-- Truncates each key and value. -/
def truncateEntries (limit : Nat) : List (Data × Data) → List (Data × Data)
  | [] => []
  | (k, v) :: es => (k.truncate limit, v.truncate limit) :: truncateEntries limit es

end

mutual

/-- Whether every part can be read. -/
def isReadable : Data → Bool
  | list items => areReadable items
  | map entries => entriesReadable entries
  | unreadable => false
  | _ => true

/-- Whether every item can be read. -/
def areReadable : List Data → Bool
  | [] => true
  | d :: ds => d.isReadable && areReadable ds

/-- Whether every key and value can be read. -/
def entriesReadable : List (Data × Data) → Bool
  | [] => true
  | (k, v) :: es => k.isReadable && v.isReadable && entriesReadable es

end

mutual

/-- A value that fits the limit is left as it is. -/
theorem truncate_of_depth_le : (d : Data) → {limit : Nat} → d.depth ≤ limit →
    d.truncate limit = d
  | list items, limit, h => by
    simp only [depth] at h
    rw [truncate, if_neg (by omega), truncateItems_of_depth_le items (by omega)]
  | map entries, limit, h => by
    simp only [depth] at h
    rw [truncate, if_neg (by omega), truncateEntries_of_depth_le entries (by omega)]
  | null, _, _ => by rw [truncate]
  | bool _, _, _ => by rw [truncate]
  | int _, _, _ => by rw [truncate]
  | minusZero, _, _ => by rw [truncate]
  | real, _, _ => by rw [truncate]
  | text _, _, _ => by rw [truncate]
  | unreadable, _, _ => by rw [truncate]

theorem truncateItems_of_depth_le : (ds : List Data) → {limit : Nat} →
    depthOfItems ds ≤ limit → truncateItems limit ds = ds
  | [], _, _ => by rw [truncateItems]
  | d :: ds, limit, h => by
    simp only [depthOfItems] at h
    rw [truncateItems, truncate_of_depth_le d (by omega),
      truncateItems_of_depth_le ds (by omega)]

theorem truncateEntries_of_depth_le : (es : List (Data × Data)) → {limit : Nat} →
    depthOfEntries es ≤ limit → truncateEntries limit es = es
  | [], _, _ => by rw [truncateEntries]
  | (k, v) :: es, limit, h => by
    simp only [depthOfEntries] at h
    rw [truncateEntries, truncate_of_depth_le k (by omega), truncate_of_depth_le v (by omega),
      truncateEntries_of_depth_le es (by omega)]

end

end Data

end TaintReplay
