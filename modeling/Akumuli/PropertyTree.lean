/-
Akumuli.PropertyTree — `boost::property_tree::ptree`, the form in which
every query reaches the parsers.

A tree is a value string and an ordered list of keyed children; keys may
repeat. The JSON reader maps an object to its members in document order,
an array to children keyed `""`, and a string or number to a leaf holding
its text. `get_child_optional(key)` finds the first child with the key,
since the key index returns the earliest of equal keys.

Only the queries the parsers make are modelled; the JSON text itself is
not, so a statement over every tree is a statement over every query text.
-/
import Mathlib.Data.List.Basic

namespace Akumuli

/-- `ptree`: a value and the keyed children. -/
inductive PTree where
  | node (data : String) (children : List (String × PTree))
  deriving Repr, Inhabited

namespace PTree

/-- `get_value<std::string>()`. -/
def data : PTree → String
  | node d _ => d

/-- The children, in order. -/
def children : PTree → List (String × PTree)
  | node _ cs => cs

/-- `empty()`: no children. -/
def empty (t : PTree) : Bool := t.children.isEmpty

/-- `get_child_optional(key)`. -/
def getChildOptional (t : PTree) (key : String) : Option PTree :=
  (t.children.find? (·.1 = key)).map (·.2)

/-- A leaf holding a string. -/
def leaf (s : String) : PTree := node s []

/-- A JSON object with the given members. -/
def obj (members : List (String × PTree)) : PTree := node "" members

/-- A JSON array of strings. -/
def arr (items : List String) : PTree := node "" (items.map fun s => ("", leaf s))

@[simp] theorem data_node (d : String) (cs : List (String × PTree)) : (node d cs).data = d := rfl

@[simp] theorem children_node (d : String) (cs : List (String × PTree)) :
    (node d cs).children = cs := rfl

theorem getChildOptional_cons (d k : String) (v : PTree) (cs : List (String × PTree))
    (key : String) :
    (node d ((k, v) :: cs)).getChildOptional key =
      if k = key then some v else (node d cs).getChildOptional key := by
  by_cases h : k = key <;> simp [getChildOptional, List.find?_cons, h]

end PTree

end Akumuli
