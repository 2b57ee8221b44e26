import Calculator.Expression

namespace Calculator

namespace Expression

inductive Part where
  | token (token : Token)
  | node (inner : Expression)
  deriving DecidableEq, Inhabited

-- What a node holds directly, in source order. A walk keeps what is still to be visited on a stack.
def parts : Expression → List Part
  | integer token _ | reference token _ | erroneous token _ => [.token token]
  | real whole point fraction _ => [.token whole, .token point, .token fraction]
  | binary left operator right => [.node left, .token operator, .node right]
  | ifThen ifToken condition thenToken body endToken _ =>
    [.token ifToken, .node condition, .token thenToken, .node body, .token endToken]
  | ifThenElse ifToken condition thenToken body elseToken otherwise endToken =>
    [.token ifToken, .node condition, .token thenToken, .node body, .token elseToken,
     .node otherwise, .token endToken]
  | binding letToken nameToken _ equals body =>
    [.token letToken, .token nameToken, .token equals, .node body]
  | foreign _ => []

def children : Expression → List Expression
  | integer .. | real .. | reference .. | erroneous .. | foreign _ => []
  | binary left _ right => [left, right]
  | ifThen _ condition _ body _ _ => [condition, body]
  | ifThenElse _ condition _ body _ otherwise _ => [condition, body, otherwise]
  | binding _ _ _ _ body => [body]

def weight : Expression → Nat
  | integer .. | reference .. | erroneous .. => 2
  | real .. => 4
  | binary left _ right => left.weight + right.weight + 2
  | ifThen _ condition _ body _ _ => condition.weight + body.weight + 4
  | ifThenElse _ condition _ body _ otherwise _ =>
    condition.weight + body.weight + otherwise.weight + 5
  | binding _ _ _ _ body => body.weight + 4
  | foreign _ => 1

def Part.weight : Part → Nat
  | .token _ => 1
  | .node inner => inner.weight

-- Sums start from the numeral `0`, also if the zero of a semiring is in scope.
attribute [local instance (high)] Zero.ofOfNat0

def stackWeight (stack : List Part) : Nat := (stack.map Part.weight).sum

def nodeStackWeight (stack : List Expression) : Nat := (stack.map weight).sum

theorem stackWeight_parts_lt (node : Expression) (stack : List Part) :
    stackWeight (node.parts ++ stack) < stackWeight (.node node :: stack) := by
  cases node <;> simp [parts, stackWeight, Part.weight, weight] <;> omega

theorem nodeStackWeight_children_lt (node : Expression) (stack : List Expression) :
    nodeStackWeight (node.children ++ stack) < nodeStackWeight (node :: stack) := by
  cases node <;> simp [children, nodeStackWeight, weight] <;> omega

-- What a walk visited, and the foreign value that ended it early.
structure Walk (α : Type) where
  visited : List α
  foreign : Option DataSort

-- Visits the tokens of a stack of parts. `visited` holds the tokens met before, the last first.
def walkTokens (stack : List Part) (visited : List Token) : Walk Token :=
  match stack with
  | [] => ⟨visited.reverse, none⟩
  | .token token :: rest => walkTokens rest (token :: visited)
  | .node (.foreign sort) :: _ => ⟨visited.reverse, some sort⟩
  | .node node :: rest => walkTokens (node.parts ++ rest) visited
termination_by stackWeight stack
decreasing_by
  · simp [stackWeight, Part.weight]
  · exact stackWeight_parts_lt node rest

-- Visits the nodes of a stack of nodes. A foreign value is met before it is found to be one.
def walkNodes (stack : List Expression) (visited : List Expression) : Walk Expression :=
  match stack with
  | [] => ⟨visited.reverse, none⟩
  | .foreign sort :: _ => ⟨(.foreign sort :: visited).reverse, some sort⟩
  | node :: rest => walkNodes (node.children ++ rest) (node :: visited)
termination_by nodeStackWeight stack
decreasing_by exact nodeStackWeight_children_lt node rest

-- Every token of an expression, in source order.
def tokenWalk (expression : Expression) : Walk Token := walkTokens [.node expression] []

-- An expression and every expression in it, parents first.
def nodeWalk (expression : Expression) : Walk Expression := walkNodes [expression] []

end Expression

namespace Expression.Walk

-- What was visited, unless a foreign value ended the walk.
def complete {α : Type} (walk : Walk α) : Except DataSort (List α) :=
  match walk.foreign with
  | some sort => .error sort
  | none => .ok walk.visited

end Expression.Walk

end Calculator
