import Throttle.Yaml.Token

/-!
# Document trees

A tree of scalars, sequences and mappings, in which an alias names another node of the document by
number. Mappings keep their entries in order, repeated keys included.
-/

set_option autoImplicit false

namespace Throttle.Yaml

structure Scalar where
  text : String
  style : Style
  /-- The expanded tag, if one was given. -/
  tag : Option String
  deriving DecidableEq, Repr

inductive Node where
  | scalar (s : Scalar)
  | sequence (items : List Node)
  | mapping (entries : List (Node × Node))
  | alias (target : Nat)
  deriving Repr

namespace Node

def empty : Node := scalar ⟨"", .plain, none⟩

instance : Inhabited Node := ⟨empty⟩

mutual

/-- A scalar or an alias counts one, a collection two beyond what is in it. -/
def weight : Node → Nat
  | .scalar _ => 1
  | .sequence items => 2 + itemsWeight items
  | .mapping entries => 2 + entriesWeight entries
  | .alias _ => 1

def itemsWeight : List Node → Nat
  | [] => 0
  | item :: rest => item.weight + itemsWeight rest

def entriesWeight : List (Node × Node) → Nat
  | [] => 0
  | (key, value) :: rest => key.weight + value.weight + entriesWeight rest

end

end Node

/-- A document: its outermost node and the nodes that its aliases name. -/
structure Document where
  root : Node
  anchors : List (Nat × Node)

namespace Document

def aliasLimit (doc : Document) : Nat := 100 * doc.root.weight

/-- The node that an alias stands for; any other node stands for itself. -/
def resolve (doc : Document) : Node → Node
  | .alias target => (doc.anchors.lookup target).getD .empty
  | node => node

end Document

end Throttle.Yaml
