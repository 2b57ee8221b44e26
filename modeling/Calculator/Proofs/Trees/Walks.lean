import Calculator.Expression.Walk

namespace Calculator.Expression

namespace Walk

variable {α : Type}

-- One walk behind another, unless the first one ended early.
def before (first second : Walk α) : Walk α :=
  match first.foreign with
  | some _ => first
  | none => ⟨first.visited ++ second.visited, second.foreign⟩

def nothing : Walk α := ⟨[], none⟩

theorem before_nothing (walk : Walk α) : walk.before nothing = walk := by
  obtain ⟨visited, foreign⟩ := walk
  cases foreign <;> simp [before, nothing]

theorem before_assoc (first second third : Walk α) :
    (first.before second).before third = first.before (second.before third) := by
  obtain ⟨visited, foreign⟩ := first
  cases foreign with
  | some sort => rfl
  | none =>
    obtain ⟨visited', foreign'⟩ := second
    cases foreign' <;> simp [before]

-- Walks one behind the other.
def join (walks : List (Walk α)) : Walk α := walks.foldr before nothing

theorem join_append (first second : List (Walk α)) :
    join (first ++ second) = (join first).before (join second) := by
  induction first with
  | nil => rfl
  | cons walk first ih =>
    simp only [List.cons_append, join, List.foldr_cons] at ih ⊢
    rw [ih, before_assoc]

theorem foreign_join_cons {walk : Walk α} {walks : List (Walk α)}
    (h : (join (walk :: walks)).foreign = none) :
    walk.foreign = none ∧ (join walks).foreign = none ∧
      (join (walk :: walks)).visited = walk.visited ++ (join walks).visited := by
  have hcons : join (walk :: walks) = walk.before (join walks) := rfl
  rw [hcons] at h ⊢
  obtain ⟨visited, foreign⟩ := walk
  cases foreign with
  | some sort => cases h
  | none => exact ⟨rfl, h, rfl⟩

theorem of_join {walks : List (Walk α)} (h : (join walks).foreign = none) :
    ∀ walk ∈ walks, walk.foreign = none ∧ ∀ item ∈ walk.visited, item ∈ (join walks).visited := by
  induction walks with
  | nil => simp
  | cons first rest ih =>
    obtain ⟨hfirst, hrest, hvisited⟩ := foreign_join_cons h
    intro walk hwalk
    rw [hvisited]
    rcases List.mem_cons.mp hwalk with rfl | hwalk
    · exact ⟨hfirst, fun item hitem => List.mem_append_left _ hitem⟩
    · obtain ⟨hforeign, hitems⟩ := ih hrest walk hwalk
      exact ⟨hforeign, fun item hitem => List.mem_append_right _ (hitems item hitem)⟩

end Walk

-- A node, then the nodes of its children.
def preorder : Expression → Walk Expression
  | binary left operator right =>
    Walk.join [⟨[binary left operator right], none⟩, left.preorder, right.preorder]
  | ifThen ifToken condition thenToken body endToken elseToken =>
    Walk.join [⟨[ifThen ifToken condition thenToken body endToken elseToken], none⟩,
      condition.preorder, body.preorder]
  | ifThenElse ifToken condition thenToken body elseToken otherwise endToken =>
    Walk.join [⟨[ifThenElse ifToken condition thenToken body elseToken otherwise endToken], none⟩,
      condition.preorder, body.preorder, otherwise.preorder]
  | binding letToken nameToken name equals body =>
    Walk.join [⟨[binding letToken nameToken name equals body], none⟩, body.preorder]
  | foreign sort => ⟨[foreign sort], some sort⟩
  | node => ⟨[node], none⟩

theorem preorder_of_node {node : Expression} (h : ∀ sort, node ≠ foreign sort) :
    node.preorder = Walk.before ⟨[node], none⟩ (Walk.join (node.children.map preorder)) := by
  cases node with
  | foreign sort => exact absurd rfl (h sort)
  | _ => rfl

theorem walkNodes_eq (stack visited : List Expression) :
    walkNodes stack visited =
      Walk.before ⟨visited.reverse, none⟩ (Walk.join (stack.map preorder)) := by
  fun_induction walkNodes stack visited with
  | case1 visited => exact (Walk.before_nothing _).symm
  | case2 visited sort rest =>
    simp [Walk.join, Walk.before, preorder]
  | case3 visited node rest hnode ih =>
    rw [ih, List.map_append, Walk.join_append, List.map_cons]
    have hstack : Walk.join (node.preorder :: rest.map preorder) =
        node.preorder.before (Walk.join (rest.map preorder)) := rfl
    rw [hstack, preorder_of_node hnode, Walk.before_assoc]
    simp [Walk.before]

theorem nodeWalk_eq (expression : Expression) : expression.nodeWalk = expression.preorder := by
  rw [nodeWalk, walkNodes_eq]
  exact Walk.before_nothing _

end Calculator.Expression
