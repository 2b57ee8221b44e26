import Calculator.Proofs.Trees.Tokens

namespace Calculator.Expression

-- An expression and every expression in it, parents first.
def nodes : Expression → List Expression
  | binary left operator right => binary left operator right :: (left.nodes ++ right.nodes)
  | ifThen ifToken condition thenToken body endToken elseToken =>
    ifThen ifToken condition thenToken body endToken elseToken :: (condition.nodes ++ body.nodes)
  | ifThenElse ifToken condition thenToken body elseToken otherwise endToken =>
    ifThenElse ifToken condition thenToken body elseToken otherwise endToken ::
      (condition.nodes ++ (body.nodes ++ otherwise.nodes))
  | binding letToken nameToken name equals body =>
    binding letToken nameToken name equals body :: body.nodes
  | node => [node]

theorem nodes_subset {node child : Expression} (h : child ∈ node.children) :
    child.nodes ⊆ node.nodes := by
  intro inner hinner
  cases node with
  | integer | real | reference | erroneous | foreign => cases h
  | binary left operator right =>
    simp only [children, List.mem_cons, List.not_mem_nil, or_false] at h
    rcases h with rfl | rfl <;> simp [nodes, hinner]
  | ifThen ifToken condition thenToken body endToken elseToken =>
    simp only [children, List.mem_cons, List.not_mem_nil, or_false] at h
    rcases h with rfl | rfl <;> simp [nodes, hinner]
  | ifThenElse ifToken condition thenToken body elseToken otherwise endToken =>
    simp only [children, List.mem_cons, List.not_mem_nil, or_false] at h
    rcases h with rfl | rfl | rfl <;> simp [nodes, hinner]
  | binding letToken nameToken name equals body =>
    simp only [children, List.mem_singleton] at h
    subst h
    simp [nodes, hinner]

theorem preorder_of_genuine {expression : Expression} (h : expression.Genuine) :
    expression.preorder = ⟨expression.nodes, none⟩ := by
  induction expression with
  | integer | real | reference | erroneous => rfl
  | binary left operator right ihLeft ihRight =>
    rw [preorder, ihLeft h.1, ihRight h.2]
    simp [Walk.join, Walk.before, Walk.nothing, nodes]
  | ifThen ifToken condition thenToken body endToken elseToken ihCondition ihBody =>
    rw [preorder, ihCondition h.1, ihBody h.2]
    simp [Walk.join, Walk.before, Walk.nothing, nodes]
  | ifThenElse ifToken condition thenToken body elseToken otherwise endToken ihCondition ihBody
      ihOtherwise =>
    rw [preorder, ihCondition h.1, ihBody h.2.1, ihOtherwise h.2.2]
    simp [Walk.join, Walk.before, Walk.nothing, nodes]
  | binding letToken nameToken name equals body ih =>
    rw [preorder, ih h]
    simp [Walk.join, Walk.before, Walk.nothing, nodes]
  | foreign sort => cases h

theorem nodeWalk_of_genuine {expression : Expression} (h : expression.Genuine) :
    expression.nodeWalk = ⟨expression.nodes, none⟩ := by
  rw [nodeWalk_eq, preorder_of_genuine h]

theorem tokenWalk_of_genuine {expression : Expression} (h : expression.Genuine) :
    expression.tokenWalk = ⟨expression.frontier fun token => [token], none⟩ := by
  rw [tokenWalk_eq, leaves_of_genuine h]

theorem frontier_subset_of_mem {expression node : Expression} (h : node ∈ expression.nodes)
    (marks : Token → List Token) : node.frontier marks ⊆ expression.frontier marks := by
  intro token htoken
  induction expression with
  | integer | real | reference | erroneous | foreign =>
    rw [List.mem_singleton.mp h] at htoken
    exact htoken
  | binary left operator right ihLeft ihRight =>
    simp only [nodes, List.mem_cons, List.mem_append] at h
    rcases h with rfl | h | h
    · exact htoken
    · simp [frontier, ihLeft h]
    · simp [frontier, ihRight h]
  | ifThen ifToken condition thenToken body endToken elseToken ihCondition ihBody =>
    simp only [nodes, List.mem_cons, List.mem_append] at h
    rcases h with rfl | h | h
    · exact htoken
    · simp [frontier, ihCondition h]
    · simp [frontier, ihBody h]
  | ifThenElse ifToken condition thenToken body elseToken otherwise endToken ihCondition ihBody
      ihOtherwise =>
    simp only [nodes, List.mem_cons, List.mem_append] at h
    rcases h with rfl | h | h | h
    · exact htoken
    · simp [frontier, ihCondition h]
    · simp [frontier, ihBody h]
    · simp [frontier, ihOtherwise h]
  | binding letToken nameToken name equals body ih =>
    simp only [nodes, List.mem_cons] at h
    rcases h with rfl | h
    · exact htoken
    · simp [frontier, ih h]

-- A walk along a list of nodes. The first foreign value ends it.
def Walk.through : List Expression → Walk Expression
  | [] => nothing
  | .foreign sort :: _ => ⟨[.foreign sort], some sort⟩
  | node :: rest => before ⟨[node], none⟩ (through rest)

theorem Walk.through_cons {node : Expression} (h : ∀ sort, node ≠ .foreign sort)
    (rest : List Expression) : through (node :: rest) = before ⟨[node], none⟩ (through rest) := by
  cases node with
  | foreign sort => exact absurd rfl (h sort)
  | _ => rfl

theorem Walk.through_append (first second : List Expression) :
    through (first ++ second) = (through first).before (through second) := by
  induction first with
  | nil => rfl
  | cons node first ih =>
    cases node with
    | foreign sort => rfl
    | _ => rw [List.cons_append, through, through, ih, before_assoc] <;> simp

theorem Walk.through_of_genuine {nodes : List Expression}
    (h : ∀ sort, .foreign sort ∉ nodes) : through nodes = ⟨nodes, none⟩ := by
  induction nodes with
  | nil => rfl
  | cons node rest ih =>
    rw [through_cons fun sort hsort => h sort (hsort ▸ List.mem_cons_self),
      ih fun sort hmem => h sort (List.mem_cons_of_mem _ hmem)]
    rfl

theorem preorder_eq_through (expression : Expression) :
    expression.preorder = Walk.through expression.nodes := by
  induction expression with
  | integer | real | reference | erroneous | foreign => rfl
  | binary left operator right ihLeft ihRight =>
    rw [preorder, ihLeft, ihRight, nodes, Walk.through_cons (by simp), Walk.through_append]
    simp [Walk.join, Walk.before_nothing]
  | ifThen ifToken condition thenToken body endToken elseToken ihCondition ihBody =>
    rw [preorder, ihCondition, ihBody, nodes, Walk.through_cons (by simp), Walk.through_append]
    simp [Walk.join, Walk.before_nothing]
  | ifThenElse ifToken condition thenToken body elseToken otherwise endToken ihCondition ihBody
      ihOtherwise =>
    rw [preorder, ihCondition, ihBody, ihOtherwise, nodes, Walk.through_cons (by simp),
      Walk.through_append, Walk.through_append]
    simp [Walk.join, Walk.before_nothing]
  | binding letToken nameToken name equals body ih =>
    rw [preorder, ih, nodes, Walk.through_cons (by simp)]
    simp [Walk.join, Walk.before_nothing]

theorem nodeWalk_eq_through (expression : Expression) :
    expression.nodeWalk = Walk.through expression.nodes := by
  rw [nodeWalk_eq, preorder_eq_through]

theorem forall_nodes_foldl {property : Expression → Prop} {first : Expression}
    {steps : List (Token × Expression)} (hfirst : ∀ node ∈ first.nodes, property node)
    (hsteps : ∀ step ∈ steps, (∀ left, property (binary left step.1 step.2)) ∧
      ∀ node ∈ step.2.nodes, property node) :
    ∀ node ∈ (steps.foldl (fun left step => binary left step.1 step.2) first).nodes,
      property node := by
  induction steps generalizing first with
  | nil => exact hfirst
  | cons step rest ih =>
    obtain ⟨⟨hbinary, hstep⟩, hrest⟩ := List.forall_mem_cons.mp hsteps
    refine ih ?_ hrest
    rw [nodes]
    exact List.forall_mem_cons.mpr ⟨hbinary first, List.forall_mem_append.mpr ⟨hfirst, hstep⟩⟩

end Calculator.Expression
