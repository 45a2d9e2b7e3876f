/-!
# Anchors

A node with an anchor gets a number: how many different names have been given before. A name that is given again thus
gets the number that the next new name will get as well. An alias stands for the last node whose number is that of
its name, even if that node comes after the alias.
-/
namespace AssetGraph.Yaml

/-- The names given so far and the nodes that have them. -/
structure Anchors (α : Type) where
  /-- Each name with its number. -/
  numbers : List (String × Nat) := []
  /-- The numbers of the nodes in the order in which these start, the last one first. A node stands beside its number
  once it is complete. -/
  nodes : List (Nat × Option α) := []
  deriving Repr

namespace Anchors

variable {α : Type}

def number? (as : Anchors α) (name : String) : Option Nat := as.numbers.lookup name

def start (as : Anchors α) (name : String) : Anchors α :=
  let number := as.numbers.length
  { numbers := (name, number) :: as.numbers.filter (·.1 ≠ name), nodes := (number, none) :: as.nodes }

/-- Completes the node that was the first to start after `before` others. -/
def complete (as : Anchors α) (before : Nat) (node : α) : Anchors α :=
  { as with nodes := as.nodes.modify (as.nodes.length - 1 - before) fun (number, _) => (number, some node) }

/-- The last node with a number. -/
def node? (as : Anchors α) (number : Nat) : Option α := (as.nodes.lookup number).join

end Anchors
end AssetGraph.Yaml
