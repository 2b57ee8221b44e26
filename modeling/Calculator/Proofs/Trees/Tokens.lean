import Calculator.Proofs.Trees.Walks

namespace Calculator.Expression

-- The tokens of a node and those of its children in their places.
def leaves : Expression → Walk Token
  | integer token _ | reference token _ | erroneous token _ => ⟨[token], none⟩
  | real whole point fraction _ => ⟨[whole, point, fraction], none⟩
  | binary left operator right => Walk.join [left.leaves, ⟨[operator], none⟩, right.leaves]
  | ifThen ifToken condition thenToken body endToken _ =>
    Walk.join [⟨[ifToken], none⟩, condition.leaves, ⟨[thenToken], none⟩, body.leaves,
      ⟨[endToken], none⟩]
  | ifThenElse ifToken condition thenToken body elseToken otherwise endToken =>
    Walk.join [⟨[ifToken], none⟩, condition.leaves, ⟨[thenToken], none⟩, body.leaves,
      ⟨[elseToken], none⟩, otherwise.leaves, ⟨[endToken], none⟩]
  | binding letToken nameToken _ equals body =>
    Walk.join [⟨[letToken], none⟩, ⟨[nameToken], none⟩, ⟨[equals], none⟩, body.leaves]
  | foreign sort => ⟨[], some sort⟩

def Part.leaves : Part → Walk Token
  | .token own => ⟨[own], none⟩
  | .node inner => inner.leaves

theorem leaves_of_node {node : Expression} (h : ∀ sort, node ≠ foreign sort) :
    node.leaves = Walk.join (node.parts.map Part.leaves) := by
  cases node with
  | foreign sort => exact absurd rfl (h sort)
  | _ => rfl

theorem walkTokens_eq (stack : List Part) (visited : List Token) :
    walkTokens stack visited =
      Walk.before ⟨visited.reverse, none⟩ (Walk.join (stack.map Part.leaves)) := by
  fun_induction walkTokens stack visited with
  | case1 visited => exact (Walk.before_nothing _).symm
  | case2 visited token rest ih =>
    rw [ih]
    have hstack : Walk.join ((Part.token token :: rest).map Part.leaves) =
        Walk.before ⟨[token], none⟩ (Walk.join (rest.map Part.leaves)) := rfl
    rw [hstack]
    simp [Walk.before]
  | case3 visited sort rest => simp [Walk.join, Walk.before, Part.leaves, leaves]
  | case4 visited node rest hnode ih =>
    rw [ih, List.map_append, Walk.join_append, List.map_cons, ← leaves_of_node hnode]
    rfl

theorem tokenWalk_eq (expression : Expression) : expression.tokenWalk = expression.leaves := by
  rw [tokenWalk, walkTokens_eq]
  exact Walk.before_nothing _

-- An expression without foreign values.
def Genuine : Expression → Prop
  | integer .. | real .. | reference .. | erroneous .. => True
  | binary left _ right => left.Genuine ∧ right.Genuine
  | ifThen _ condition _ body _ _ => condition.Genuine ∧ body.Genuine
  | ifThenElse _ condition _ body _ otherwise _ =>
    condition.Genuine ∧ body.Genuine ∧ otherwise.Genuine
  | binding _ _ _ _ body => body.Genuine
  | foreign _ => False

-- The tokens of an expression in source order. `marks` are the tokens that an erroneous node
-- with its token counts for.
def frontier (marks : Token → List Token) : Expression → List Token
  | integer token _ | reference token _ => [token]
  | real whole point fraction _ => [whole, point, fraction]
  | binary left operator right => left.frontier marks ++ operator :: right.frontier marks
  | ifThen ifToken condition thenToken body endToken _ =>
    ifToken :: (condition.frontier marks ++ thenToken :: (body.frontier marks ++ [endToken]))
  | ifThenElse ifToken condition thenToken body elseToken otherwise endToken =>
    ifToken :: (condition.frontier marks ++ thenToken :: (body.frontier marks ++
      elseToken :: (otherwise.frontier marks ++ [endToken])))
  | binding letToken nameToken _ equals body =>
    letToken :: nameToken :: equals :: body.frontier marks
  | erroneous token _ => marks token
  | foreign _ => []

theorem leaves_of_genuine {expression : Expression} (h : expression.Genuine) :
    expression.leaves = ⟨expression.frontier fun token => [token], none⟩ := by
  induction expression with
  | integer | real | reference | erroneous => rfl
  | binary left operator right ihLeft ihRight =>
    rw [leaves, ihLeft h.1, ihRight h.2]
    simp [Walk.join, Walk.before, Walk.nothing, frontier]
  | ifThen ifToken condition thenToken body endToken elseToken ihCondition ihBody =>
    rw [leaves, ihCondition h.1, ihBody h.2]
    simp [Walk.join, Walk.before, Walk.nothing, frontier]
  | ifThenElse ifToken condition thenToken body elseToken otherwise endToken ihCondition ihBody
      ihOtherwise =>
    rw [leaves, ihCondition h.1, ihBody h.2.1, ihOtherwise h.2.2]
    simp [Walk.join, Walk.before, Walk.nothing, frontier]
  | binding letToken nameToken name equals body ih =>
    rw [leaves, ih h]
    simp [Walk.join, Walk.before, Walk.nothing, frontier]
  | foreign sort => cases h

end Calculator.Expression
