import Calculator.Proofs.Parsing.Gaps
import Calculator.Proofs.Trees.Lacking

namespace Calculator.Parser

open Grammar

-- What becomes of tokens of a symbol that lack one: they are read with one report, or, if it is a
-- closing token that they lack, they may be open. `repairs` is about the other tokens.
def Recovers (levels : Nat) (symbol : Symbol) (tokens : List Token)
    (repairs : Meaning symbol → Diagnostic → Prop) (closing : Prop) : Prop :=
  closing ∧ Open levels symbol tokens ∨
    ∀ behind, symbol.Ends behind →
      Falters levels symbol tokens behind (fun meaning d => ¬closing → repairs meaning d) closing

theorem Falters.closing {levels : Nat} {symbol : Symbol} {tokens behind : List Token}
    {repairs : Meaning symbol → Diagnostic → Prop} {closing : Prop} (hclosing : closing)
    (h : Falters levels symbol tokens behind (fun _ _ => True) True) :
    Falters levels symbol tokens behind (fun meaning d => ¬closing → repairs meaning d) closing :=
  h.mono (fun _ _ _ hnot => absurd hclosing hnot) fun _ => hclosing

namespace Recovers

variable {levels : Nat} {tokens : List Token} {closing : Prop}

theorem mono {symbol : Symbol} {repairs repairs' : Meaning symbol → Diagnostic → Prop}
    (h : Recovers levels symbol tokens repairs closing)
    (hrepairs : ∀ meaning d, repairs meaning d → repairs' meaning d) :
    Recovers levels symbol tokens repairs' closing :=
  h.imp id fun hfalters behind hends =>
    (hfalters behind hends).mono (fun meaning d hd hnot => hrepairs meaning d (hd hnot)) id

theorem binding {letToken name equals : Token} {repairs repairs' : Expression → Diagnostic → Prop}
    (isLet : letToken.kind = .letWord) (isName : name.kind = .identifier)
    (isEquals : equals.kind = .equals)
    (h : Recovers levels (.one .expression) tokens repairs closing)
    (hrepairs : ∀ body d, repairs body d →
      repairs' (.binding letToken name (name.text.getD "") equals body) d) :
    Recovers (levels + 1) (.one .expression) (letToken :: name :: equals :: tokens) repairs'
      closing := by
  rcases h with ⟨hclosing, hopen⟩ | hfalters
  · exact .inl ⟨hclosing, hopen.binding isLet isName isEquals⟩
  · exact .inr fun behind hends => (hfalters behind hends).binding isLet isName isEquals
      fun body d hd hnot => hrepairs body d (hd hnot)

theorem comparison {repairs : Expression → Diagnostic → Prop}
    (hbegins : ∃ token rest, tokens = token :: rest ∧
      (Nonterminal.chain .comparison).begins token.kind = true)
    (h : Recovers levels (.one (.chain .comparison)) tokens repairs closing) :
    Recovers (levels + 1) (.one .expression) tokens repairs closing := by
  rcases h with ⟨hclosing, hopen⟩ | hfalters
  · exact .inl ⟨hclosing, hopen.comparison⟩
  · exact .inr fun behind hends => (hfalters behind hends).comparison hbegins

theorem first {level : Level} {repairs repairs' : Expression → Diagnostic → Prop}
    {rest : Derivation (.many level)} (hrest : rest.Admissible) (hdepth : rest.depth ≤ levels)
    (h : Recovers levels (.one level.operand) tokens repairs closing)
    (hrepairs : ∀ first d, repairs first d → repairs' (List.foldl
      (fun left step => Expression.binary left step.1 step.2) first rest.tree) d) :
    Recovers levels (.one (.chain level)) (tokens ++ rest.tokens) repairs' closing := by
  rcases h with ⟨hclosing, hopen⟩ | hfalters
  · rcases hopen.absorbs_or_falters hrest with hopen | hfalters
    · exact .inl ⟨hclosing, hopen.only⟩
    · exact .inr fun behind hends => .closing hclosing
        ((hfalters behind hends).first hrest hdepth hends fun _ _ _ => trivial)
  · exact .inr fun behind hends => (hfalters _ (rest.ends_operand hends)).first hrest hdepth hends
      fun first d hd hnot => hrepairs first d (hd hnot)

theorem rest {level : Level} {repairs : List (Token × Expression) → Diagnostic → Prop}
    {repairs' : Expression → Diagnostic → Prop} {first : Derivation (.one level.operand)}
    (hfirst : first.Admissible) (hdepth : first.depth ≤ levels)
    (hbegins : ∃ token rest, tokens = token :: rest ∧ level.holds token.kind = true)
    (h : Recovers levels (.many level) tokens repairs closing)
    (hrepairs : ∀ steps d, repairs steps d → repairs' (List.foldl
      (fun left step => Expression.binary left step.1 step.2) first.tree steps) d) :
    Recovers levels (.one (.chain level)) (first.tokens ++ tokens) repairs' closing := by
  obtain ⟨operator, others, rfl, isOperator⟩ := hbegins
  rcases h with ⟨hclosing, hopen⟩ | hfalters
  · exact .inl ⟨hclosing, hopen.rest hfirst hdepth⟩
  · exact .inr fun behind hends => (hfalters behind hends).rest hfirst hdepth
      (Symbol.ends_cons.mpr (Nonterminal.extendedBy_operand_of_holds isOperator))
      fun steps d hd hnot => hrepairs steps d (hd hnot)

theorem operand {level : Level} {operator : Token} {repairs : Expression → Diagnostic → Prop}
    {repairs' : List (Token × Expression) → Diagnostic → Prop} {rest : Derivation (.many level)}
    (isOperator : level.holds operator.kind = true) (hrest : rest.Admissible)
    (hdepth : rest.depth ≤ levels)
    (h : Recovers levels (.one level.operand) tokens repairs closing)
    (hrepairs : ∀ operand d, repairs operand d → repairs' ((operator, operand) :: rest.tree) d) :
    Recovers levels (.many level) (operator :: (tokens ++ rest.tokens)) repairs' closing := by
  rcases h with ⟨hclosing, hopen⟩ | hfalters
  · rcases hopen.absorbs_or_falters hrest with hopen | hfalters
    · exact .inl ⟨hclosing, hopen.last isOperator⟩
    · exact .inr fun behind hends => .closing hclosing
        ((hfalters behind hends).operand isOperator hrest hdepth hends fun _ _ _ => trivial)
  · exact .inr fun behind hends => (hfalters _ (rest.ends_operand hends)).operand isOperator hrest
      hdepth hends fun operand d hd hnot => hrepairs operand d (hd hnot)

theorem more {level : Level} {operator : Token}
    {repairs repairs' : List (Token × Expression) → Diagnostic → Prop}
    {operand : Derivation (.one level.operand)} (isOperator : level.holds operator.kind = true)
    (hoperand : operand.Admissible) (hdepth : operand.depth ≤ levels)
    (hbegins : ∃ token rest, tokens = token :: rest ∧ level.holds token.kind = true)
    (h : Recovers levels (.many level) tokens repairs closing)
    (hrepairs : ∀ steps d, repairs steps d → repairs' ((operator, operand.tree) :: steps) d) :
    Recovers levels (.many level) (operator :: (operand.tokens ++ tokens)) repairs' closing := by
  obtain ⟨next, others, rfl, isNext⟩ := hbegins
  rcases h with ⟨hclosing, hopen⟩ | hfalters
  · exact .inl ⟨hclosing, hopen.more isOperator hoperand hdepth⟩
  · exact .inr fun behind hends => (hfalters behind hends).more isOperator hoperand hdepth
      (Symbol.ends_cons.mpr (Nonterminal.extendedBy_operand_of_holds isNext))
      fun steps d hd hnot => hrepairs steps d (hd hnot)

-- A token that closes another construct closes the one with the gap, or comes behind the report.
theorem filled_or_falters {symbol : Symbol} {repairs : Meaning symbol → Diagnostic → Prop}
    {token : Token} (htoken : token.kind = .rightParen ∨ token.kind = .endWord)
    (h : Recovers levels symbol tokens repairs closing) :
    closing ∧ Derived symbol (tokens ++ [token]) ∨
      ∀ behind, Falters levels symbol tokens (token :: behind)
        (fun meaning d => ¬closing → repairs meaning d) closing := by
  rcases h with ⟨hclosing, hopen⟩ | hfalters
  · rcases hopen.filled_or_falters htoken with hfilled | hfalters
    · exact .inl ⟨hclosing, hfilled⟩
    · exact .inr fun behind => .closing hclosing (hfalters behind)
  · have hcloses : token.kind.closes = true := by rcases htoken with h | h <;> rw [h] <;> rfl
    exact .inr fun behind => hfalters _ (Symbol.ends_of_closes hcloses)

theorem filled_or_falters_else {symbol : Symbol} {repairs : Meaning symbol → Diagnostic → Prop}
    {elseToken endToken : Token} {otherwise : Derivation (.one .expression)}
    (isElse : elseToken.kind = .elseWord) (isEnd : endToken.kind = .endWord)
    (hotherwise : otherwise.Admissible) (h : Recovers levels symbol tokens repairs closing) :
    closing ∧ Derived symbol (tokens ++ elseToken :: (otherwise.tokens ++ [endToken])) ∨
      ∀ behind, Falters levels symbol tokens (elseToken :: behind)
        (fun meaning d => ¬closing → repairs meaning d) closing := by
  rcases h with ⟨hclosing, hopen⟩ | hfalters
  · rcases hopen.filled_or_falters_else isElse isEnd hotherwise with hfilled | hfalters
    · exact .inl ⟨hclosing, hfilled⟩
    · exact .inr fun behind => .closing hclosing (hfalters behind)
  · have hcloses := Symbol.closes_of_kind isElse rfl
    exact .inr fun behind => hfalters _ (Symbol.ends_of_closes hcloses)

-- Where the gap took the token that closes a construct, the construct lacks it instead.
theorem group {left right : Token} {repairs : Expression → Diagnostic → Prop}
    (isLeft : left.kind = .leftParen) (isRight : right.kind = .rightParen)
    (h : Recovers levels (.one .expression) tokens repairs closing) :
    Recovers levels (.one .primary) (left :: (tokens ++ [right])) repairs closing := by
  rcases h.filled_or_falters (.inl isRight) with ⟨hclosing, inner, hinner, htokens⟩ | hfalters
  · rw [← htokens]
    exact .inl ⟨hclosing, .of_tip (.group left inner isLeft) hinner⟩
  · exact .inr fun behind _ => (hfalters behind).group isLeft isRight

theorem condition {thenToken : Token} {body : Derivation (.one .expression)} {behind : List Token}
    {repairs : Expression → Diagnostic → Prop}
    {repairs' : Expression → Token → Expression → Diagnostic → Prop}
    (isThen : thenToken.kind = .thenWord) (hbody : body.Admissible) (hdepth : body.depth ≤ levels)
    (hends : (Symbol.one .expression).Ends behind)
    (h : Recovers levels (.one .expression) tokens repairs closing)
    (hrepairs : ∀ condition d, repairs condition d → repairs' condition thenToken body.tree d) :
    BranchFalters levels (tokens ++ thenToken :: body.tokens) behind
      (fun condition thenToken body d => ¬closing → repairs' condition thenToken body d)
      closing := by
  have hcondition : Falters levels (.one .expression) tokens
      (thenToken :: (body.tokens ++ behind)) (fun meaning d => ¬closing → repairs meaning d)
      closing := by
    rcases h with ⟨hclosing, hopen⟩ | hfalters
    · exact .closing hclosing (hopen.falters (by simp [isThen]))
    · exact hfalters _ (Symbol.ends_of_closes (Symbol.closes_of_kind isThen rfl))
  exact .condition isThen hbody hdepth hends hcondition fun condition d hd hnot =>
    hrepairs condition d (hd hnot)

theorem ifThen_body {ifToken thenToken endToken : Token} {condition : Derivation (.one .expression)}
    {repairs repairs' : Expression → Diagnostic → Prop} (isIf : ifToken.kind = .ifWord)
    (isThen : thenToken.kind = .thenWord) (isEnd : endToken.kind = .endWord)
    (hcondition : condition.Admissible) (hdepth : condition.depth ≤ levels)
    (h : Recovers levels (.one .expression) tokens repairs closing)
    (hrepairs : ∀ body d, repairs body d →
      repairs' (.ifThen ifToken condition.tree thenToken body endToken .empty) d) :
    Recovers (levels + 1) (.one .expression)
      (ifToken :: (condition.tokens ++ thenToken :: (tokens ++ [endToken]))) repairs' closing := by
  rcases h.filled_or_falters (.inr isEnd) with ⟨hclosing, body, hbody, htokens⟩ | hfalters
  · rw [← htokens]
    exact .inl ⟨hclosing, .of_tip (.ifThen ifToken condition thenToken body isIf isThen)
      ⟨hcondition, hbody⟩⟩
  · have hsplit : condition.tokens ++ thenToken :: (tokens ++ [endToken]) =
        condition.tokens ++ thenToken :: tokens ++ [endToken] := by simp
    rw [hsplit]
    exact .inr fun behind _ => .ifThen isIf isEnd (.body isThen hcondition hdepth (hfalters behind)
      fun body d hd hnot => hrepairs body d (hd hnot))

theorem ifThenElse_body {ifToken thenToken elseToken endToken : Token}
    {condition otherwise : Derivation (.one .expression)}
    {repairs repairs' : Expression → Diagnostic → Prop} (isIf : ifToken.kind = .ifWord)
    (isThen : thenToken.kind = .thenWord) (isElse : elseToken.kind = .elseWord)
    (isEnd : endToken.kind = .endWord) (hcondition : condition.Admissible)
    (hotherwise : otherwise.Admissible) (hdepth : max condition.depth otherwise.depth ≤ levels)
    (h : Recovers levels (.one .expression) tokens repairs closing)
    (hrepairs : ∀ body d, repairs body d → repairs'
      (.ifThenElse ifToken condition.tree thenToken body elseToken otherwise.tree endToken) d) :
    Recovers (levels + 1) (.one .expression) (ifToken :: (condition.tokens ++ thenToken ::
      (tokens ++ elseToken :: (otherwise.tokens ++ [endToken])))) repairs' closing := by
  obtain ⟨hdepthCondition, hdepthOtherwise⟩ := Nat.max_le.mp hdepth
  rcases h.filled_or_falters_else isElse isEnd hotherwise with
    ⟨hclosing, body, hbody, htokens⟩ | hfalters
  · rw [← htokens]
    exact .inl ⟨hclosing, .of_tip (.ifThen ifToken condition thenToken body isIf isThen)
      ⟨hcondition, hbody⟩⟩
  · have hsplit : condition.tokens ++ thenToken :: (tokens ++ elseToken ::
        (otherwise.tokens ++ [endToken])) = condition.tokens ++ thenToken :: tokens ++ elseToken ::
          (otherwise.tokens ++ [endToken]) := by simp
    rw [hsplit]
    exact .inr fun behind _ => .ifThenElse isIf isElse isEnd hotherwise hdepthOtherwise
      (.body isThen hcondition hdepthCondition (hfalters _)
        fun body d hd hnot => hrepairs body d (hd hnot))

theorem otherwise {ifToken thenToken elseToken endToken : Token}
    {condition body : Derivation (.one .expression)}
    {repairs repairs' : Expression → Diagnostic → Prop} (isIf : ifToken.kind = .ifWord)
    (isThen : thenToken.kind = .thenWord) (isElse : elseToken.kind = .elseWord)
    (isEnd : endToken.kind = .endWord) (hcondition : condition.Admissible)
    (hbody : body.Admissible) (hdepth : max condition.depth body.depth ≤ levels)
    (h : Recovers levels (.one .expression) tokens repairs closing)
    (hrepairs : ∀ otherwise d, repairs otherwise d → repairs'
      (.ifThenElse ifToken condition.tree thenToken body.tree elseToken otherwise endToken) d) :
    Recovers (levels + 1) (.one .expression) (ifToken :: (condition.tokens ++ thenToken ::
      (body.tokens ++ elseToken :: (tokens ++ [endToken])))) repairs' closing := by
  rcases h.filled_or_falters (.inr isEnd) with ⟨hclosing, otherwise, hotherwise, htokens⟩ | hfalters
  · rw [← htokens]
    exact .inl ⟨hclosing, .of_tip (.ifThenElse ifToken condition thenToken body elseToken otherwise
      isIf isThen isElse) ⟨hcondition, hbody, hotherwise⟩⟩
  · exact .inr fun behind _ => (hfalters behind).otherwise isIf isThen isElse isEnd hcondition hbody
      hdepth fun otherwise d hd hnot => hrepairs otherwise d (hd hnot)

end Recovers

-- A token that the parser wants: one that stands between the parts of a construct or closes it, or
-- the name behind a `let`. `front` is what stands before it.
def Wanted (front : List Token) (token : Token) : Prop :=
  token.kind ∈ [.thenWord, .equals, .endWord, .rightParen] ∨
    token.kind = .identifier ∧ ∃ last ∈ front.getLast?, last.kind = .letWord

-- Those that close a construct.
def Shuts (token : Token) : Prop := token.kind = .endWord ∨ token.kind = .rightParen

namespace Wanted

variable {front front' : List Token} {token : Token}

theorem of_append (h : Wanted (front ++ front') token) (hfront' : front' ≠ []) :
    Wanted front' token :=
  h.imp id fun ⟨hkind, hlast⟩ => ⟨hkind, List.getLast?_append_of_ne_nil front hfront' ▸ hlast⟩

theorem behind {head : Token} (h : Wanted (front ++ head :: front') token)
    (hhead : head.kind ≠ .letWord) : Wanted front' token := by
  cases front' with
  | cons first rest =>
    rw [List.append_cons] at h
    exact h.of_append (by simp)
  | nil =>
    refine h.imp id fun ⟨_, last, hlast, isLet⟩ => ?_
    obtain rfl : head = last := by simpa using hlast
    exact absurd isLet hhead

theorem begins_eq_false (h : Wanted [] token) (symbol : Symbol) :
    symbol.begins token.kind = false := by
  have hnone : ∀ kind ∈ [Kind.thenWord, .equals, .endWord, .rightParen],
      symbol.begins kind = false := by
    rcases symbol with (_ | level | _ | _) | level <;> (try cases level) <;> decide
  rcases h with hkind | ⟨_, _, hlast, _⟩
  · exact hnone _ hkind
  · cases hlast

theorem holds_eq_false (h : Wanted front token) (level : Level) :
    level.holds token.kind = false := by
  have hnone : ∀ kind ∈ [Kind.thenWord, .equals, .endWord, .rightParen],
      level.holds kind = false := by
    cases level <;> decide
  rcases h with hkind | ⟨hkind, _⟩
  · exact hnone _ hkind
  · rw [hkind]
    cases level <;> rfl

end Wanted

-- The tokens with one of them, which stands nowhere else, between those in front of it and those
-- behind it.
structure Omits (tokens front : List Token) (token : Token) (back : List Token) : Prop where
  split : tokens = front ++ token :: back
  once : token ∉ front ++ back

namespace Omits

variable {first second front back rest : List Token} {head token : Token}

theorem not_nil : ¬Omits [] front token back := by
  rintro ⟨hsplit, _⟩
  simp at hsplit

theorem cons (h : Omits (head :: rest) front token back) :
    (front = [] ∧ head = token ∧ rest = back ∧ token ∉ rest) ∨
      ∃ front', front = head :: front' ∧ token ≠ head ∧ Omits rest front' token back := by
  obtain ⟨hsplit, honce⟩ := h
  rcases List.cons_eq_append_iff.mp hsplit with ⟨rfl, hcons⟩ | ⟨front', rfl, hrest⟩
  · obtain ⟨rfl, rfl⟩ := List.cons.inj hcons
    exact .inl ⟨rfl, rfl, rfl, honce⟩
  · rw [List.cons_append, List.mem_cons, not_or] at honce
    exact .inr ⟨front', rfl, honce.1, hrest, honce.2⟩

theorem append (h : Omits (first ++ second) front token back) :
    (∃ middle, back = middle ++ second ∧ token ∉ second ∧ Omits first front token middle) ∨
      ∃ middle, front = first ++ middle ∧ token ∉ first ∧ Omits second middle token back := by
  obtain ⟨hsplit, honce⟩ := h
  rcases List.append_eq_append_iff.mp hsplit with ⟨middle, rfl, hsecond⟩ | ⟨middle, hfirst, hback⟩
  · simp only [List.mem_append, not_or] at honce
    exact .inr ⟨middle, rfl, honce.1.1, hsecond, by simp [honce.1.2, honce.2]⟩
  · cases middle with
    | nil =>
      obtain rfl : second = token :: back := hback.symm
      rw [List.append_nil] at hfirst
      subst hfirst
      simp only [List.mem_append, not_or] at honce
      exact .inr ⟨[], by simp, honce.1, rfl, honce.2⟩
    | cons next middle =>
      obtain ⟨rfl, rfl⟩ := List.cons.inj hback
      simp only [List.append_eq, List.mem_append, not_or] at honce
      exact .inl ⟨middle, rfl, honce.2.2, hfirst, by simp [honce.1, honce.2.1]⟩

end Omits

-- The tree of what is left is the one of the derivation without the token, which is reported
-- missing where the next one stands.
structure Repaired {symbol : Symbol} (token : Token) (back : List Token)
    (tree meaning : Meaning symbol) (d : Diagnostic) : Prop where
  meaning : meaning = Meaning.without token tree
  span : ∃ next ∈ back.head?, d.span = some next.span

namespace Repaired

variable {symbol symbol' : Symbol} {token : Token} {back : List Token}
  {tree meaning : Meaning symbol} {tree' meaning' : Meaning symbol'} {d : Diagnostic}

theorem map (h : Repaired token back tree meaning d)
    (hmeaning : meaning = Meaning.without token tree → meaning' = Meaning.without token tree') :
    Repaired token back tree' meaning' d :=
  ⟨hmeaning h.meaning, h.span⟩

theorem append (h : Repaired token back tree meaning d) (others : List Token) :
    Repaired token (back ++ others) tree meaning d := by
  obtain ⟨hmeaning, next, hnext, hspan⟩ := h
  refine ⟨hmeaning, next, ?_, hspan⟩
  rw [List.head?_append, Option.mem_def.mp hnext]
  rfl

end Repaired

end Calculator.Parser

namespace Calculator.Grammar.Derivation

open Calculator.Parser

-- That the derivation recovers from each gap.
def IsRecovered {symbol : Symbol} (d : Derivation symbol) : Prop :=
  d.Admissible → ∀ (levels : Nat) (front : List Token) (token : Token) (back : List Token),
    d.depth ≤ levels → Omits d.tokens front token back → Wanted front token →
      Recovers levels symbol (front ++ back) (Repaired token back d.tree) (Shuts token)

namespace IsRecovered

theorem binding {letToken name equals : Token} {body : Derivation (.one .expression)}
    (isLet : letToken.kind = .letWord) (isName : name.kind = .identifier)
    (isEquals : equals.kind = .equals) (ih : body.IsRecovered) :
    (binding letToken name equals body isLet isName isEquals).IsRecovered := by
  intro hadmissible levels front token back hdepth homits hwanted
  cases levels with
  | zero => cases hdepth
  | succ levels =>
    have hbody : body.Admissible := hadmissible
    have hdepth : body.depth ≤ levels := Nat.le_of_succ_le_succ hdepth
    rcases homits.cons with ⟨rfl, rfl, -, -⟩ | ⟨front, rfl, hlet, homits⟩
    · simp [Wanted, isLet] at hwanted
    rcases homits.cons with ⟨rfl, rfl, rfl, hnot⟩ | ⟨front, rfl, hname, homits⟩
    · obtain ⟨hequals, hnot⟩ := not_or.mp (mt List.mem_cons.mpr hnot)
      refine .inr fun behind hends => .missingName isLet isEquals hbody hdepth hends
        fun d hspan _ => ⟨?_, equals, rfl, hspan⟩
      simp [Meaning.without, tree, Expression.without, Token.without_of_ne, hlet, hequals,
        without_expression hnot]
    rcases homits.cons with ⟨rfl, rfl, rfl, hnot⟩ | ⟨front, rfl, hequals, homits⟩
    · refine .inr fun behind hends => .missingEquals isLet isName hbody hdepth hends
        fun d hspan _ => ⟨?_, hspan⟩
      simp [Meaning.without, tree, Expression.without, Token.without_of_ne, hlet, hname,
        Ne.symm hname, without_expression hnot]
    · have hwanted : Wanted ([letToken, name] ++ equals :: front) token := hwanted
      refine (ih hbody levels front token back hdepth homits
        (hwanted.behind (by rw [isEquals]; decide))).binding isLet isName isEquals
          fun meaning d hd => hd.map fun hmeaning => ?_
      simp [hmeaning, Meaning.without, tree, Expression.without, Token.without_of_ne, hlet, hname,
        Ne.symm hname, hequals]

-- A gap in a condition with the branch behind it. Both are read with one report if it is in the
-- condition or in the place of the `then`; otherwise it is in the branch.
theorem branch {condition body : Derivation (.one .expression)} {thenToken : Token}
    (ihCondition : condition.IsRecovered) (ihBody : body.IsRecovered)
    (isThen : thenToken.kind = .thenWord) (hcondition : condition.Admissible)
    (hbody : body.Admissible) {levels : Nat} (hdepth : max condition.depth body.depth ≤ levels)
    {front back : List Token} {token : Token}
    (homits : Omits (condition.tokens ++ thenToken :: body.tokens) front token back)
    (hwanted : Wanted front token) (repairs : Expression → Token → Expression → Diagnostic → Prop)
    (hrepairs : ∀ d : Diagnostic, (∃ next ∈ back.head?, d.span = some next.span) →
      repairs (Expression.without token condition.tree) (token.without thenToken)
        (Expression.without token body.tree) d) :
    (∀ behind, (Symbol.one .expression).Ends behind →
      BranchFalters levels (front ++ back) behind
        (fun condition thenToken body d => ¬Shuts token → repairs condition thenToken body d)
        (Shuts token)) ∨
    ∃ ahead, front = condition.tokens ++ thenToken :: ahead ∧
      Recovers levels (.one .expression) (ahead ++ back) (repairs condition.tree thenToken)
        (Shuts token) := by
  obtain ⟨hdepthCondition, hdepthBody⟩ := Nat.max_le.mp hdepth
  rcases homits.append with ⟨back, rfl, hnot, homits⟩ | ⟨front, rfl, hnot, homits⟩
  · obtain ⟨hthen, hnotBody⟩ := not_or.mp (mt List.mem_cons.mpr hnot)
    rw [Token.without_of_ne hthen, without_expression hnotBody] at hrepairs
    refine .inl fun behind hends => ?_
    rw [← List.append_assoc]
    refine (ihCondition hcondition levels front token back hdepthCondition homits
      hwanted).condition isThen hbody hdepthBody hends fun condition d hd => ?_
    rw [hd.meaning]
    exact hrepairs d (hd.append _).span
  rw [without_expression hnot] at hrepairs
  rcases homits.cons with ⟨rfl, rfl, rfl, hnotBody⟩ | ⟨front, rfl, hthen, homits⟩
  · rw [Token.without_self, without_expression hnotBody] at hrepairs
    refine .inl fun behind hends => ?_
    rw [List.append_nil]
    exact .missingThen hcondition hbody hdepth hends fun d hspan _ => hrepairs d hspan
  · rw [Token.without_of_ne hthen] at hrepairs
    refine .inr ⟨front, rfl, (ihBody hbody levels front token back hdepthBody homits
      (hwanted.behind (by rw [isThen]; decide))).mono fun body d hd => ?_⟩
    rw [hd.meaning]
    exact hrepairs d hd.span

theorem ifThen {ifToken thenToken endToken : Token} {condition body : Derivation (.one .expression)}
    (isIf : ifToken.kind = .ifWord) (isThen : thenToken.kind = .thenWord)
    (isEnd : endToken.kind = .endWord) (ihCondition : condition.IsRecovered)
    (ihBody : body.IsRecovered) :
    (ifThen ifToken condition thenToken body endToken isIf isThen isEnd).IsRecovered := by
  intro hadmissible levels front token back hdepth homits hwanted
  cases levels with
  | zero => cases hdepth
  | succ levels =>
    obtain ⟨hcondition, hbody⟩ := hadmissible
    have hdepth : max condition.depth body.depth ≤ levels := Nat.le_of_succ_le_succ hdepth
    rcases homits.cons with ⟨rfl, rfl, -, -⟩ | ⟨front, rfl, hif, homits⟩
    · simp [Wanted, isIf] at hwanted
    have hwanted : Wanted ([] ++ ifToken :: front) token := hwanted
    have hwanted := hwanted.behind (by rw [isIf]; decide)
    -- the gap is in front of the `end` or in its place
    rw [List.append_cons, ← List.append_assoc, ← List.append_cons] at homits
    rcases homits.append with ⟨back, rfl, hend, homits⟩ | ⟨front, rfl, -, homits⟩
    · rw [List.mem_singleton] at hend
      rcases branch ihCondition ihBody isThen hcondition hbody hdepth homits hwanted
        (fun condition' thenToken' body' => Repaired token (back ++ [endToken])
          (tree (.ifThen ifToken condition thenToken body endToken isIf isThen isEnd))
          (.ifThen ifToken condition' thenToken' body' endToken .empty))
        (fun d hspan => .append ⟨by
          simp [Meaning.without, tree, Expression.without, Token.without_of_ne, hif, hend], hspan⟩ _)
        with hbranch | ⟨ahead, rfl, hrecovers⟩
      · rw [List.cons_append, ← List.append_assoc]
        exact .inr fun behind _ => .ifThen isIf isEnd
          (hbranch _ (Symbol.ends_of_closes (Symbol.closes_of_kind isEnd rfl)))
      · rw [List.cons_append, List.append_assoc, List.cons_append, ← List.append_assoc ahead]
        exact hrecovers.ifThen_body isIf isThen isEnd hcondition (Nat.max_le.mp hdepth).1
          fun _ _ hd => hd
    rcases homits.cons with ⟨rfl, rfl, rfl, -⟩ | ⟨front, rfl, _, homits⟩
    · rw [List.append_nil, List.append_nil]
      exact .inl ⟨.inl isEnd, .of_tip (.ifThen ifToken condition thenToken body isIf isThen)
        ⟨hcondition, hbody⟩⟩
    · exact absurd homits Omits.not_nil

theorem ifThenElse {ifToken thenToken elseToken endToken : Token}
    {condition body otherwise : Derivation (.one .expression)}
    (isIf : ifToken.kind = .ifWord) (isThen : thenToken.kind = .thenWord)
    (isElse : elseToken.kind = .elseWord) (isEnd : endToken.kind = .endWord)
    (ihCondition : condition.IsRecovered) (ihBody : body.IsRecovered)
    (ihOtherwise : otherwise.IsRecovered) :
    (ifThenElse ifToken condition thenToken body elseToken otherwise endToken isIf isThen isElse
      isEnd).IsRecovered := by
  intro hadmissible levels front token back hdepth homits hwanted
  cases levels with
  | zero => cases hdepth
  | succ levels =>
    obtain ⟨hcondition, hbody, hotherwise⟩ := hadmissible
    have hdepth : max condition.depth (max body.depth otherwise.depth) ≤ levels :=
      Nat.le_of_succ_le_succ hdepth
    have hdepthBranch : max condition.depth body.depth ≤ levels := by omega
    have hdepthOtherwise : otherwise.depth ≤ levels := by omega
    rcases homits.cons with ⟨rfl, rfl, -, -⟩ | ⟨front, rfl, hif, homits⟩
    · simp [Wanted, isIf] at hwanted
    have hwanted : Wanted ([] ++ ifToken :: front) token := hwanted
    have hwanted := hwanted.behind (by rw [isIf]; decide)
    -- the gap is in front of the `else`, behind it or in the place of the `end`
    rw [List.append_cons, ← List.append_assoc, ← List.append_cons] at homits
    rcases homits.append with ⟨back, rfl, hnot, homits⟩ | ⟨front, rfl, hnot, homits⟩
    · simp only [List.mem_cons, List.mem_append, List.not_mem_nil, or_false, not_or] at hnot
      obtain ⟨helse, hnotOtherwise, hend⟩ := hnot
      rcases branch ihCondition ihBody isThen hcondition hbody hdepthBranch homits hwanted
        (fun condition' thenToken' body' => Repaired token (back ++ _)
          (tree (.ifThenElse ifToken condition thenToken body elseToken otherwise endToken isIf
            isThen isElse isEnd))
          (.ifThenElse ifToken condition' thenToken' body' elseToken otherwise.tree endToken))
        (fun d hspan => .append ⟨by
          simp [Meaning.without, tree, Expression.without, Token.without_of_ne, hif, helse,
            without_expression hnotOtherwise, hend], hspan⟩ _)
        with hbranch | ⟨ahead, rfl, hrecovers⟩
      · rw [List.cons_append, ← List.append_assoc]
        exact .inr fun behind _ => .ifThenElse isIf isElse isEnd hotherwise hdepthOtherwise
          (hbranch _ (Symbol.ends_of_closes (Symbol.closes_of_kind isElse rfl)))
      · rw [List.cons_append, List.append_assoc, List.cons_append, ← List.append_assoc ahead]
        exact hrecovers.ifThenElse_body isIf isThen isElse isEnd hcondition hotherwise (by omega)
          fun _ _ hd => hd
    rcases homits.cons with ⟨rfl, rfl, -, -⟩ | ⟨front, rfl, helse, homits⟩
    · simp [Wanted, isElse] at hwanted
    simp only [List.mem_append, List.mem_cons, not_or] at hnot
    obtain ⟨hnotCondition, hthen, hnotBody⟩ := hnot
    rcases homits.append with ⟨back, rfl, hend, homits⟩ | ⟨front, rfl, -, homits⟩
    · rw [List.mem_singleton] at hend
      have hsplit : ifToken :: (condition.tokens ++ thenToken :: body.tokens ++ elseToken ::
          front) ++ (back ++ [endToken]) = ifToken :: (condition.tokens ++ thenToken ::
            (body.tokens ++ elseToken :: (front ++ back ++ [endToken]))) := by simp
      rw [hsplit]
      refine (ihOtherwise hotherwise levels front token back hdepthOtherwise homits
        (hwanted.behind (by rw [isElse]; decide))).otherwise isIf isThen isElse isEnd hcondition
          hbody hdepthBranch fun otherwise d hd => (hd.append _).map fun hmeaning => ?_
      simp [hmeaning, Meaning.without, tree, Expression.without, Token.without_of_ne, hif,
        without_expression hnotCondition, hthen, without_expression hnotBody, helse, hend]
    rcases homits.cons with ⟨rfl, rfl, rfl, -⟩ | ⟨front, rfl, _, homits⟩
    · have hsplit : ifToken :: (condition.tokens ++ thenToken :: body.tokens ++ elseToken ::
          (otherwise.tokens ++ [])) ++ [] = ifToken :: (condition.tokens ++ thenToken ::
            (body.tokens ++ elseToken :: otherwise.tokens)) := by simp
      rw [hsplit]
      exact .inl ⟨.inl isEnd, .of_tip (.ifThenElse ifToken condition thenToken body elseToken
        otherwise isIf isThen isElse) ⟨hcondition, hbody, hotherwise⟩⟩
    · exact absurd homits Omits.not_nil

theorem begins {symbol : Symbol} {d : Derivation symbol} {front back : List Token} {token : Token}
    (homits : Omits d.tokens front token back) (hwanted : Wanted front token) :
    ∃ first rest, front = first :: rest ∧ symbol.begins first.kind = true := by
  obtain ⟨first, rest, htokens, hbegins⟩ | ⟨level, rfl, hnone⟩ := d.tokens_eq_cons
  · rw [htokens] at homits
    rcases homits.cons with ⟨rfl, rfl, -, -⟩ | ⟨front, rfl, -, -⟩
    · rw [hwanted.begins_eq_false symbol] at hbegins
      cases hbegins
    · exact ⟨first, front, rfl, hbegins⟩
  · rw [hnone] at homits
    exact absurd homits Omits.not_nil

theorem begins_rest {level : Level} {rest : Derivation (.many level)} {front back : List Token}
    {token : Token} (before : List Token) (homits : Omits rest.tokens front token back)
    (hwanted : Wanted (before ++ front) token) :
    (∃ operator others, front ++ back = operator :: others ∧ level.holds operator.kind = true) ∧
      Wanted front token := by
  cases rest with
  | nothing => exact absurd homits Omits.not_nil
  | more operator operand others isOperator =>
    rcases homits.cons with ⟨rfl, rfl, -, -⟩ | ⟨front, rfl, -, -⟩
    · rw [hwanted.holds_eq_false level] at isOperator
      cases isOperator
    · exact ⟨⟨operator, _, rfl, isOperator⟩, hwanted.of_append (by simp)⟩

theorem comparison {operands : Derivation (.one (.chain .comparison))} (ih : operands.IsRecovered) :
    (comparison operands).IsRecovered := by
  intro hadmissible levels front token back hdepth homits hwanted
  cases levels with
  | zero => cases hdepth
  | succ levels =>
    have hdepth : operands.depth ≤ levels := Nat.le_of_succ_le_succ hdepth
    obtain ⟨first, rest, hfront, hbegins⟩ := begins (d := operands) homits hwanted
    have hrecovers := ih hadmissible levels front token back hdepth homits hwanted
    exact (Recovers.comparison ⟨first, rest ++ back, by rw [hfront]; rfl, hbegins⟩ hrecovers).mono
      fun _ _ hd => hd.map id

theorem chain {level : Level} {first : Derivation (.one level.operand)}
    {rest : Derivation (.many level)} (ihFirst : first.IsRecovered) (ihRest : rest.IsRecovered) :
    (chain first rest).IsRecovered := by
  intro hadmissible levels front token back hdepth homits hwanted
  obtain ⟨hdepthFirst, hdepthRest⟩ := Nat.max_le.mp hdepth
  rcases homits.append with ⟨back, rfl, hnot, homits⟩ | ⟨front, rfl, hnot, homits⟩
  · rw [← List.append_assoc]
    refine (ihFirst hadmissible.1 levels front token back hdepthFirst homits hwanted).first
      hadmissible.2 hdepthRest fun meaning d hd => (hd.append _).map fun hmeaning => ?_
    have hrest := rest.without_tree hnot
    simp only [Meaning.without] at hmeaning hrest
    simp only [Meaning.without, tree, without_foldl, hmeaning, hrest]
  · obtain ⟨hbegins, hwanted⟩ := begins_rest first.tokens homits hwanted
    rw [List.append_assoc]
    refine (ihRest hadmissible.2 levels front token back hdepthRest homits hwanted).rest
      hadmissible.1 hdepthFirst hbegins
        fun steps d hd => hd.map fun hmeaning => ?_
    have hfirst := first.without_expression hnot
    simp only [Meaning.without] at hmeaning
    simp only [Meaning.without, tree, without_foldl, hmeaning, hfirst]

theorem nothing {level : Level} : (nothing : Derivation (.many level)).IsRecovered :=
  fun _ _ _ _ _ _ homits _ => absurd homits Omits.not_nil

theorem more {level : Level} {operator : Token} {operand : Derivation (.one level.operand)}
    {rest : Derivation (.many level)} (isOperator : level.holds operator.kind = true)
    (ihOperand : operand.IsRecovered) (ihRest : rest.IsRecovered) :
    (more operator operand rest isOperator).IsRecovered := by
  intro hadmissible levels front token back hdepth homits hwanted
  obtain ⟨hdepthOperand, hdepthRest⟩ := Nat.max_le.mp hdepth
  rcases homits.cons with ⟨rfl, rfl, -, -⟩ | ⟨front, rfl, hnotOperator, homits⟩
  · rw [hwanted.holds_eq_false level] at isOperator
    cases isOperator
  rcases homits.append with ⟨back, rfl, hnot, homits⟩ | ⟨front, rfl, hnot, homits⟩
  · have hoperator : operator.kind ≠ .letWord := by
      rintro hkind
      rw [hkind] at isOperator
      cases level <;> cases isOperator
    have hwanted : Wanted ([] ++ operator :: front) token := hwanted
    rw [List.cons_append, ← List.append_assoc]
    refine (ihOperand hadmissible.1 levels front token back hdepthOperand homits
      (hwanted.behind hoperator)).operand isOperator hadmissible.2 hdepthRest fun meaning d hd =>
        (hd.append _).map fun hmeaning => ?_
    have hrest := rest.without_tree hnot
    simp only [Meaning.without] at hmeaning hrest
    simp [Meaning.without, tree, Token.without_of_ne, hnotOperator, hmeaning, hrest]
  · obtain ⟨hbegins, hwanted⟩ := begins_rest (operator :: operand.tokens) homits hwanted
    rw [List.cons_append, List.append_assoc]
    refine (ihRest hadmissible.2 levels front token back hdepthRest homits hwanted).more isOperator
      hadmissible.1 hdepthOperand hbegins fun steps d hd => hd.map fun hmeaning => ?_
    simp only [Meaning.without] at hmeaning
    simp [Meaning.without, tree, Token.without_of_ne, hnotOperator, hmeaning,
      operand.without_expression hnot]

theorem group {left right : Token} {inner : Derivation (.one .expression)}
    (isLeft : left.kind = .leftParen) (isRight : right.kind = .rightParen)
    (ih : inner.IsRecovered) : (group left inner right isLeft isRight).IsRecovered := by
  intro hadmissible levels front token back hdepth homits hwanted
  rcases homits.cons with ⟨rfl, rfl, -, -⟩ | ⟨front, rfl, hnotLeft, homits⟩
  · simp [Wanted, isLeft] at hwanted
  rcases homits.append with ⟨back, rfl, hnotRight, homits⟩ | ⟨front, rfl, hnotInner, homits⟩
  · have hwanted : Wanted ([] ++ left :: front) token := hwanted
    rw [List.cons_append, ← List.append_assoc]
    exact ((ih hadmissible levels front token back hdepth homits
      (hwanted.behind (by rw [isLeft]; decide))).group isLeft isRight).mono
        fun _ _ hd => (hd.append _).map id
  rcases homits.cons with ⟨rfl, rfl, rfl, -⟩ | ⟨front, rfl, _, homits⟩
  · rw [List.append_nil, List.append_nil]
    exact .inl ⟨.inr isRight, .of_tip (.group left inner isLeft) hadmissible⟩
  · exact absurd homits Omits.not_nil

theorem number_kinds (d : Derivation (.one .number)) :
    ∀ token ∈ d.tokens, token.kind = .number ∨ token.kind = .period := by
  cases d with
  | integer digits isDigits => simp [tokens, isDigits]
  | real whole point fraction isWhole isPoint isFraction =>
    simp [tokens, isWhole, isPoint, isFraction]

theorem of_number {symbol : Symbol} {d : Derivation symbol} (number : Derivation (.one .number))
    (htokens : d.tokens = number.tokens) : d.IsRecovered := by
  intro _ levels front token back _ homits hwanted
  have hmem : token ∈ number.tokens := by
    rw [← htokens, homits.split]
    simp
  rcases number_kinds number token hmem with hkind | hkind <;> simp [Wanted, hkind] at hwanted

theorem reference {name : Token} (isName : name.kind = .identifier) :
    (reference name isName).IsRecovered := by
  intro _ levels front token back _ homits hwanted
  obtain ⟨first, rest, rfl, _⟩ := begins (d := .reference name isName) homits hwanted
  rcases homits.cons with ⟨hfront, -⟩ | ⟨_, _, _, homits⟩
  · cases hfront
  · exact absurd homits Omits.not_nil

end IsRecovered

theorem isRecovered {symbol : Symbol} (d : Derivation symbol) : d.IsRecovered := by
  induction d with
  | binding letToken name equals body isLet isName isEquals ih =>
    exact .binding isLet isName isEquals ih
  | ifThen ifToken condition thenToken body endToken isIf isThen isEnd ihCondition ihBody =>
    exact .ifThen isIf isThen isEnd ihCondition ihBody
  | ifThenElse ifToken condition thenToken body elseToken otherwise endToken isIf isThen isElse
      isEnd ihCondition ihBody ihOtherwise =>
    exact .ifThenElse isIf isThen isElse isEnd ihCondition ihBody ihOtherwise
  | comparison operands ih => exact ih.comparison
  | chain first rest ihFirst ihRest => exact ihFirst.chain ihRest
  | nothing => exact .nothing
  | more operator operand rest isOperator ihOperand ihRest =>
    exact .more isOperator ihOperand ihRest
  | literal number => exact .of_number number rfl
  | reference name isName => exact .reference isName
  | group left inner right isLeft isRight ih => exact .group isLeft isRight ih
  | integer digits isDigits => exact .of_number (.integer digits isDigits) rfl
  | real whole point fraction isWhole isPoint isFraction =>
    exact .of_number (.real whole point fraction isWhole isPoint isFraction) rfl

end Calculator.Grammar.Derivation
