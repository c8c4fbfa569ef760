import DocWire.Json.Token

/-!
# Reading JSON

A list of tokens is folded into a tree from left to right. What is still open is kept as a stack of
levels, so nesting costs nothing and has no bound here; how deep a tree may be is for those to say
who take it into memory.
-/

namespace DocWire.Json

/-- An array or an object whose end has not come yet, with what stands before the item being read,
in reverse order, and the key of that item in an object. -/
inductive Level where
  | array (items : List Node)
  | object (entries : List (Node × Node)) (key : Node)
  deriving Repr, Inhabited

mutual

/-- Reads on where a value has to start. -/
def valueFrom (stack : List Level) : List Token → Option Node
  | .openArray :: .closeArray :: ts => afterValue stack (.seq []) ts
  | .openArray :: ts => valueFrom (.array [] :: stack) ts
  | .openObject :: .closeObject :: ts => afterValue stack (.map []) ts
  | .openObject :: .text key :: .colon :: ts => valueFrom (.object [] key :: stack) ts
  | .text n :: ts => afterValue stack n ts
  | .scalar n :: ts => afterValue stack n ts
  | _ => none

/-- Reads on behind a complete value. -/
def afterValue (stack : List Level) (n : Node) : List Token → Option Node
  | [] =>
    match stack with
    | [] => some n
    | _ => none
  | .comma :: .text key :: .colon :: ts =>
    match stack with
    | .object entries k :: stack => valueFrom (.object ((k, n) :: entries) key :: stack) ts
    | .array items :: stack => valueFrom (.array (n :: items) :: stack) (.text key :: .colon :: ts)
    | [] => none
  | .comma :: ts =>
    match stack with
    | .array items :: stack => valueFrom (.array (n :: items) :: stack) ts
    | _ => none
  | .closeArray :: ts =>
    match stack with
    | .array items :: stack => afterValue stack (.seq (n :: items).reverse) ts
    | _ => none
  | .closeObject :: ts =>
    match stack with
    | .object entries k :: stack => afterValue stack (.map ((k, n) :: entries).reverse) ts
    | _ => none
  | _ => none

end

/-- The tree that a JSON text spells; blanks may stand around it, and nothing else. -/
def parse? (bs : List UInt8) : Option Node := (tokens? bs).bind (valueFrom [])

end DocWire.Json
