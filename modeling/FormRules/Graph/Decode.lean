import FormRules.Decode.Value
import FormRules.Graph.Basic

/-!
# Reading graphs

A graph as a list of pairs of a node and the set of its targets.
-/

namespace FormRules.Graph

open Decode

/-- A set of texts in the order in which they are given. -/
def names : Json → Except Fault (List String)
  | .array items => items.mapM Decode.text
  | value => .error (.kind value.outline .set)

def edgeOfJson : Json → Except Fault (String × List String)
  | .array [] => .error (.length 0 .pair)
  | .array [node] => do
    let _ ← Decode.text node
    throw (.length 1 .pair)
  | .array (node :: targets :: rest) => do
    let edge := (← Decode.text node, ← names targets)
    if rest.isEmpty then pure edge else throw (.length (rest.length + 2) .fewerItems)
  | value => .error (.kind value.outline .pair)

def ofJson (value : Json) : Except Fault (Graph String) :=
  ofList <$> Decode.items value fun edge _ ↦ edgeOfJson edge

end FormRules.Graph
