import Mathlib.Data.List.Forall2
import Calculator.Proofs.Trees.Nodes

namespace Calculator.Expression

-- The tokens of an expression in source order, each node's own ones between those of its parts.
def tokens (expression : Expression) : List Token := expression.frontier fun token => [token]

-- That a foreign value is the first one in an expression.
def FirstForeign (expression : Expression) (sort : DataSort) : Prop :=
  ∃ front back, expression.nodes = front ++ foreign sort :: back ∧
    ∀ other, foreign other ∉ front

namespace Walk

variable {α : Type}

-- That a walk goes along a list: to its end, or up to a foreign value.
structure Along (walk : Walk α) (items : List α) : Prop where
  front : walk.visited <+: items
  whole : walk.foreign = none → walk.visited = items

theorem along_all (items : List α) : Along ⟨items, none⟩ items :=
  ⟨List.prefix_rfl, fun _ => rfl⟩

theorem Along.before {first second : Walk α} {items items' : List α} (h : first.Along items)
    (h' : second.Along items') : (first.before second).Along (items ++ items') := by
  obtain ⟨visited, foreign⟩ := first
  cases foreign with
  | some sort => exact ⟨h.front.trans (List.prefix_append ..), nofun⟩
  | none =>
    obtain rfl : visited = items := h.whole rfl
    refine ⟨List.prefix_append_right_inj _ |>.mpr h'.front, fun hnone => ?_⟩
    exact congrArg (visited ++ ·) (h'.whole hnone)

theorem through_along (nodes : List Expression) : (through nodes).Along nodes := by
  induction nodes with
  | nil => exact along_all []
  | cons node rest ih =>
    cases node with
    | foreign sort => exact ⟨by simp [through], nofun⟩
    | _ => exact (along_all [_]).before ih

theorem Along.join {walks : List (Walk α)} {items : List (List α)}
    (h : List.Forall₂ Along walks items) : (Walk.join walks).Along items.flatten := by
  induction h with
  | nil => exact along_all []
  | cons hfirst _ ih => exact hfirst.before ih

theorem foreign_before (first second : Walk α) :
    (first.before second).foreign = first.foreign.or second.foreign := by
  obtain ⟨visited, foreign⟩ := first
  cases foreign <;> rfl

theorem foreign_join (walks : List (Walk α)) :
    (join walks).foreign = walks.findSome? Walk.foreign := by
  induction walks with
  | nil => rfl
  | cons first rest ih =>
    have hcons : join (first :: rest) = first.before (join rest) := rfl
    rw [hcons, foreign_before, ih, List.findSome?_cons]
    cases first.foreign <;> rfl

theorem through_of_first {front : List Expression} (h : ∀ other, .foreign other ∉ front)
    (sort : DataSort) (back : List Expression) :
    through (front ++ .foreign sort :: back) = ⟨front ++ [.foreign sort], some sort⟩ := by
  rw [through_append, through_of_genuine h]
  rfl

end Walk

theorem genuine_or_first (nodes : List Expression) :
    (∀ sort, foreign sort ∉ nodes) ∨
      ∃ front sort back, nodes = front ++ foreign sort :: back ∧
        ∀ other, foreign other ∉ front := by
  induction nodes with
  | nil => exact .inl fun _ => List.not_mem_nil
  | cons node rest ih =>
    by_cases hnode : ∃ sort, node = foreign sort
    · obtain ⟨sort, rfl⟩ := hnode
      exact .inr ⟨[], sort, rest, rfl, fun _ => List.not_mem_nil⟩
    · have hcons : ∀ {others : List Expression}, (∀ sort, foreign sort ∉ others) →
          ∀ sort, foreign sort ∉ node :: others := fun hothers sort hmem =>
        (List.mem_cons.mp hmem).elim (fun heq => hnode ⟨sort, heq.symm⟩) (hothers sort)
      rcases ih with hrest | ⟨front, sort, back, rfl, hfront⟩
      · exact .inl (hcons hrest)
      · exact .inr ⟨node :: front, sort, back, rfl, hcons hfront⟩

-- Both walks are ended by the same foreign value.
theorem foreign_leaves (expression : Expression) :
    expression.leaves.foreign = expression.preorder.foreign := by
  induction expression with
  | integer | real | reference | erroneous | foreign => rfl
  | binary left operator right ihLeft ihRight =>
    simp only [leaves, preorder, Walk.foreign_join, List.findSome?, ihLeft, ihRight]
  | ifThen ifToken condition thenToken body endToken elseToken ihCondition ihBody =>
    simp only [leaves, preorder, Walk.foreign_join, List.findSome?, ihCondition, ihBody]
  | ifThenElse ifToken condition thenToken body elseToken otherwise endToken ihCondition ihBody
      ihOtherwise =>
    simp only [leaves, preorder, Walk.foreign_join, List.findSome?, ihCondition, ihBody,
      ihOtherwise]
  | binding letToken nameToken name equals body ih =>
    simp only [leaves, preorder, Walk.foreign_join, List.findSome?, ih]

theorem leaves_along (expression : Expression) : expression.leaves.Along expression.tokens := by
  have hown (token : Token) : Walk.Along ⟨[token], none⟩ [token] := Walk.along_all _
  induction expression with
  | integer token | reference token | erroneous token => exact hown token
  | real whole point fraction => exact Walk.along_all _
  | binary left operator right ihLeft ihRight =>
    have hjoin := Walk.Along.join (.cons ihLeft (.cons (hown operator) (.cons ihRight .nil)))
    simpa [tokens, frontier, leaves] using hjoin
  | ifThen ifToken condition thenToken body endToken elseToken ihCondition ihBody =>
    have hjoin := Walk.Along.join (.cons (hown ifToken) (.cons ihCondition
      (.cons (hown thenToken) (.cons ihBody (.cons (hown endToken) .nil)))))
    simpa [tokens, frontier, leaves] using hjoin
  | ifThenElse ifToken condition thenToken body elseToken otherwise endToken ihCondition ihBody
      ihOtherwise =>
    have hjoin := Walk.Along.join (.cons (hown ifToken) (.cons ihCondition
      (.cons (hown thenToken) (.cons ihBody (.cons (hown elseToken) (.cons ihOtherwise
        (.cons (hown endToken) .nil)))))))
    simpa [tokens, frontier, leaves] using hjoin
  | binding letToken nameToken name equals body ih =>
    have hjoin := Walk.Along.join (.cons (hown letToken) (.cons (hown nameToken)
      (.cons (hown equals) (.cons ih .nil))))
    simpa [tokens, frontier, leaves] using hjoin
  | foreign sort =>
    refine ⟨List.nil_prefix, fun hnone => ?_⟩
    cases hnone

variable {expression : Expression}

theorem complete_of_genuine (h : ∀ sort, foreign sort ∉ expression.nodes) :
    expression.nodeWalk.complete = .ok expression.nodes ∧
      expression.tokenWalk.complete = .ok expression.tokens := by
  have hnodes : expression.nodeWalk = ⟨expression.nodes, none⟩ := by
    rw [nodeWalk_eq_through, Walk.through_of_genuine h]
  have hforeign : expression.leaves.foreign = none := by
    rw [foreign_leaves, ← nodeWalk_eq, hnodes]
  have htokens := expression.leaves_along.whole hforeign
  rw [hnodes, tokenWalk_eq]
  simp only [Walk.complete, hforeign, htokens, and_self]

theorem complete_of_first {sort : DataSort} (h : expression.FirstForeign sort) :
    expression.nodeWalk.complete = .error sort ∧ expression.tokenWalk.complete = .error sort := by
  obtain ⟨front, back, hnodes, hfront⟩ := h
  have hwalk : expression.nodeWalk = ⟨front ++ [foreign sort], some sort⟩ := by
    rw [nodeWalk_eq_through, hnodes, Walk.through_of_first hfront]
  have hforeign : expression.leaves.foreign = some sort := by
    rw [foreign_leaves, ← nodeWalk_eq, hwalk]
  rw [hwalk, tokenWalk_eq]
  simp only [Walk.complete, hforeign, and_self]

theorem FirstForeign.unique {sort sort' : DataSort} (h : expression.FirstForeign sort)
    (h' : expression.FirstForeign sort') : sort = sort' :=
  Except.error.inj ((complete_of_first h).1.symm.trans (complete_of_first h').1)

theorem FirstForeign.mem {sort : DataSort} (h : expression.FirstForeign sort) :
    foreign sort ∈ expression.nodes := by
  obtain ⟨front, back, hnodes, _⟩ := h
  rw [hnodes]
  exact List.mem_append_right front List.mem_cons_self

-- What a complete walk and one that was ended tell of the foreign values.
theorem complete_iff {α : Type} {walk : Walk α} {items : List α}
    (hwhole : (∀ sort, foreign sort ∉ expression.nodes) → walk.complete = .ok items)
    (hfirst : ∀ sort, expression.FirstForeign sort → walk.complete = .error sort) :
    (∀ visited, walk.complete = .ok visited ↔
      (∀ sort, foreign sort ∉ expression.nodes) ∧ visited = items) ∧
    ∀ sort, walk.complete = .error sort ↔ expression.FirstForeign sort := by
  rcases genuine_or_first expression.nodes with hgenuine | ⟨front, sort, back, hnodes, hfront⟩
  · have hnone (sort : DataSort) : ¬expression.FirstForeign sort := fun h => hgenuine sort h.mem
    rw [hwhole hgenuine]
    exact ⟨fun visited => by simp [hgenuine, eq_comm], fun sort => by simp [hnone]⟩
  · have hsort : expression.FirstForeign sort := ⟨front, back, hnodes, hfront⟩
    rw [hfirst sort hsort]
    refine ⟨fun visited => ?_, fun other => ⟨?_, fun h => by rw [hsort.unique h]⟩⟩
    · exact iff_of_false nofun fun h => h.1 sort hsort.mem
    · rintro ⟨⟩
      exact hsort

-- Both walks meet what the recursion meets, all nodes with parents first, and all tokens in source
-- order, unless there is a foreign value. Then the first one ends them when they have met a front
-- part. A null value in place of the other branch of a condition means that there is none.
theorem walks_follow_the_recursion (expression : Expression) :
    (∀ nodes, expression.nodeWalk.complete = .ok nodes ↔
      (∀ sort, foreign sort ∉ expression.nodes) ∧ nodes = expression.nodes) ∧
    (∀ tokens, expression.tokenWalk.complete = .ok tokens ↔
      (∀ sort, foreign sort ∉ expression.nodes) ∧ tokens = expression.tokens) ∧
    (∀ sort, expression.nodeWalk.complete = .error sort ↔ expression.FirstForeign sort) ∧
    (∀ sort, expression.tokenWalk.complete = .error sort ↔ expression.FirstForeign sort) ∧
    expression.nodeWalk.visited <+: expression.nodes ∧
    expression.tokenWalk.visited <+: expression.tokens ∧
    ∀ ifToken thenToken body endToken elseToken,
      conditional ifToken expression thenToken body endToken elseToken (some (foreign .null)) =
        ifThen ifToken expression thenToken body endToken elseToken := by
  obtain ⟨hnodes, hnodesEnd⟩ := complete_iff (fun h => (complete_of_genuine h).1)
    fun _ h => (complete_of_first h).1
  obtain ⟨htokens, htokensEnd⟩ := complete_iff (fun h => (complete_of_genuine h).2)
    fun _ h => (complete_of_first h).2
  refine ⟨hnodes, htokens, hnodesEnd, htokensEnd, ?_, ?_, fun _ _ _ _ _ => rfl⟩
  · rw [nodeWalk_eq_through]
    exact (Walk.through_along _).front
  · rw [tokenWalk_eq]
    exact expression.leaves_along.front

end Calculator.Expression
