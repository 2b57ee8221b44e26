import Calculator.Expression.Walk

namespace Calculator

-- The token at another place. A missing token has none.
def Token.moved (move : Span → Span) (token : Token) : Token :=
  if token.isEmpty then token else { token with span := move token.span }

namespace Token

variable (move : Span → Span) (token : Token)

@[simp] theorem kind_moved : (token.moved move).kind = token.kind := by
  unfold moved
  split <;> rfl

@[simp] theorem text_moved : (token.moved move).text = token.text := by
  unfold moved
  split <;> rfl

theorem moved_of_kind {token : Token} (h : token.kind ≠ .empty) :
    token.moved move = { token with span := move token.span } :=
  if_neg (by simpa [isEmpty] using h)

theorem moved_moved (move' : Span → Span) :
    (token.moved move).moved move' = token.moved (move' ∘ move) := by
  by_cases h : token.kind = .empty
  · simp [moved, isEmpty, h]
  · have hkind : (token.moved move).kind ≠ .empty := by rwa [kind_moved]
    rw [moved_of_kind move' hkind, moved_of_kind move h, moved_of_kind (move' ∘ move) h]
    rfl

end Token

-- A span without its place.
def Span.unplaced (span : Span) : Span :=
  { line := 0, column := 0, offset := 0, length := span.length }

-- A span so many lines and characters further on.
def Span.shifted (lines characters : Nat) (span : Span) : Span :=
  { span with line := span.line + lines, offset := span.offset + characters }

namespace Expression

def mapTokens (change : Token → Token) : Expression → Expression
  | integer token value => integer (change token) value
  | real whole point fraction value => real (change whole) (change point) (change fraction) value
  | binary left operator right =>
    binary (left.mapTokens change) (change operator) (right.mapTokens change)
  | reference token name => reference (change token) name
  | ifThen ifToken condition thenToken body endToken elseToken =>
    ifThen (change ifToken) (condition.mapTokens change) (change thenToken) (body.mapTokens change)
      (change endToken) (change elseToken)
  | ifThenElse ifToken condition thenToken body elseToken otherwise endToken =>
    ifThenElse (change ifToken) (condition.mapTokens change) (change thenToken)
      (body.mapTokens change) (change elseToken) (otherwise.mapTokens change) (change endToken)
  | binding letToken nameToken name equals body =>
    binding (change letToken) (change nameToken) name (change equals) (body.mapTokens change)
  | erroneous token message => erroneous (change token) message
  | foreign sort => foreign sort

theorem mapTokens_id (expression : Expression) : expression.mapTokens id = expression := by
  induction expression <;> simp_all [mapTokens]

theorem mapTokens_mapTokens (change change' : Token → Token) (expression : Expression) :
    (expression.mapTokens change).mapTokens change' =
      expression.mapTokens (change' ∘ change) := by
  induction expression <;> simp_all [mapTokens]

-- The expression at another place.
def moved (move : Span → Span) (expression : Expression) : Expression :=
  expression.mapTokens (Token.moved move)

theorem moved_moved (move move' : Span → Span) (expression : Expression) :
    (expression.moved move).moved move' = expression.moved (move' ∘ move) := by
  have hmoved : Token.moved move' ∘ Token.moved move = Token.moved (move' ∘ move) :=
    funext fun token => token.moved_moved move move'
  rw [moved, moved, mapTokens_mapTokens, hmoved, moved]

end Expression

end Calculator
