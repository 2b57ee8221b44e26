import Calculator.Proofs.Decimal.Fractions
import Calculator.Proofs.Parsing.Frontier
import Calculator.Proofs.Trees.Nodes

namespace Calculator

open Grammar Calculator.Parser

namespace Token

-- What tokens of a text have in common, the end of the text included.
structure Sound (file : String) (token : Token) : Prop where
  kind : token.kind ≠ .empty
  file : token.span.file = file
  text : token.kind.varies = true →
    ∃ written, token.text = some written ∧ Spells token.kind written.toList

structure Counts (digits : String) (token : Token) : Prop where
  kind : token.kind = .number
  text : token.text = some digits
  nonempty : digits ≠ ""
  digit : ∀ c ∈ digits.toList, c.isDigit = true

structure Names (name : String) (token : Token) : Prop where
  kind : token.kind = .identifier
  text : token.text = some name
  nonempty : name ≠ ""

def Fills (kind : Kind) (token : Token) : Prop := token.kind = kind ∨ token = .empty

namespace Sound

variable {file : String} {token : Token}

theorem exists_text (h : token.Sound file) (hvaries : token.kind.varies = true) :
    ∃ written, token.text = some written ∧ written ≠ "" ∧ Spells token.kind written.toList := by
  obtain ⟨written, hwritten, hspells⟩ := h.text hvaries
  refine ⟨written, hwritten, ?_, hspells⟩
  rintro rfl
  exact hspells.nonempty rfl

theorem counts (h : token.Sound file) (hkind : token.kind = .number) :
    token.Counts token.lexeme := by
  obtain ⟨written, hwritten, hne, hspells⟩ := h.exists_text (by rw [hkind]; rfl)
  rw [hkind] at hspells
  have hlexeme : token.lexeme = written := by simp [lexeme, hwritten]
  rw [hlexeme]
  exact ⟨hkind, hwritten, hne, hspells.isDigit⟩

theorem names (h : token.Sound file) (hkind : token.kind = .identifier) :
    token.Names (token.text.getD "") := by
  obtain ⟨written, hwritten, hne, _⟩ := h.exists_text (by rw [hkind]; rfl)
  rw [hwritten]
  exact ⟨hkind, hwritten, hne⟩

end Sound

end Token

-- A node by itself, that is without the nodes in it.
def Expression.WellKinded : Expression → Prop
  | integer token value =>
    ∃ digits, token.Counts digits ∧ value = (Nat.ofDigitChars 10 digits.toList 0 : Nat)
  | real whole point fraction value =>
    ∃ digits decimals, whole.Counts digits ∧ point.kind = .period ∧ fraction.Counts decimals ∧
      Decimal.ofString? (digits ++ "." ++ decimals) = some value
  | binary _ operator _ => operator.kind.isBinary = true
  | reference token name => token.Names name
  | ifThen ifToken _ thenToken _ endToken elseToken =>
    ifToken.kind = .ifWord ∧ thenToken.Fills .thenWord ∧ endToken.Fills .endWord ∧
      elseToken = .empty
  | ifThenElse ifToken _ thenToken _ elseToken _ endToken =>
    ifToken.kind = .ifWord ∧ thenToken.Fills .thenWord ∧ elseToken.kind = .elseWord ∧
      endToken.Fills .endWord
  | binding letToken nameToken name equals _ =>
    letToken.kind = .letWord ∧ (nameToken.Names name ∨ nameToken = .empty ∧ name = "") ∧
      equals.Fills .equals
  | erroneous token _ => token.kind ≠ .empty
  | foreign _ => False

-- A node of a text of this name.
structure Expression.Kept (file : String) (node : Expression) : Prop where
  kinds : node.WellKinded
  file : node.span.file = file

namespace Expression.Kept

variable {file : String} {token : Token}

theorem leaf {node : Expression} (h : node.Kept file) (hnodes : node.nodes = [node]) :
    ∀ inner ∈ node.nodes, inner.Kept file := by
  intro inner hinner
  rw [hnodes, List.mem_singleton] at hinner
  exact hinner ▸ h

theorem erroneous (h : token.Sound file) (message : String) :
    (Expression.erroneous token message).Kept file :=
  ⟨h.kind, h.file⟩

theorem real {whole point fraction : Token} (hwhole : whole.Sound file)
    (hfraction : fraction.Sound file) (isWhole : whole.kind = .number)
    (isPoint : point.kind = .period) (isFraction : fraction.kind = .number) :
    (Expression.real whole point fraction
      (Decimal.ofParts whole.lexeme.toList fraction.lexeme.toList)).Kept file := by
  have hdigits := hwhole.counts isWhole
  have hdecimals := hfraction.counts isFraction
  have hvalue := Decimal.ofString?_of_parts hdigits.nonempty hdigits.digit hdecimals.digit
  exact ⟨⟨_, _, hdigits, isPoint, hdecimals, hvalue⟩, hwhole.file⟩

end Expression.Kept

-- That all nodes of what a symbol is read as are kept.
def Grammar.Kept (file : String) : (symbol : Symbol) → Meaning symbol → Prop
  | .one _, expression => ∀ node ∈ Expression.nodes expression, node.Kept file
  | .many _, steps => ∀ step ∈ steps,
    (∀ left, (Expression.binary left step.1 step.2).Kept file) ∧
      ∀ node ∈ step.2.nodes, node.Kept file

namespace Parser

-- A state in which all that may still be met are tokens of a text of this name.
def State.Sound (file : String) (state : State) : Prop :=
  ∀ token ∈ state.upcoming, token.Sound file

namespace State.Sound

variable {file : String} {state after : State}

theorem next (h : state.Sound file) : state.next.Sound file := h _ state.next_mem_upcoming

theorem of_leadsTo (h : state.Sound file) (hleads : state.LeadsTo after) : after.Sound file :=
  fun token htoken => h token (hleads.upcoming.subset htoken)

theorem advance (h : state.Sound file) : state.advance.Sound file :=
  h.of_leadsTo (.advance state)

theorem expect (h : state.Sound file) {kind : Kind} {what : String} {wanted : Token × State}
    (hwanted : state.expect kind what = wanted) :
    wanted.2.Sound file ∧ wanted.1.Fills kind ∧
      (wanted.1 = .empty ∨ wanted.1.kind = kind ∧ wanted.1.Sound file) := by
  refine ⟨h.of_leadsTo (.expect hwanted), ?_⟩
  subst hwanted
  have hskipped := h.of_leadsTo (.skipInvalid state)
  unfold State.expect
  dsimp only
  split
  · rename_i hkind
    exact ⟨.inl hkind, .inr ⟨hkind, hskipped.next⟩⟩
  · exact ⟨.inr rfl, .inl rfl⟩

end State.Sound

namespace Reads

variable {levels : Nat} {symbol : Symbol} {state after : State} {meaning : Meaning symbol}
  {file : String}

theorem kept (h : Reads levels symbol state meaning after) (hsound : state.Sound file) :
    Kept file symbol meaning := by
  induction h with
  | tooDeep => exact .leaf (.erroneous hsound.next _) rfl
  | binding isLet hname hequals hbody ih =>
    obtain ⟨hnamed, _, hnameToken⟩ := hsound.advance.expect hname
    obtain ⟨hbound, hequalsToken, _⟩ := hnamed.expect hequals
    refine List.forall_mem_cons.mpr ⟨⟨⟨isLet, ?_, hequalsToken⟩, hsound.next.file⟩, ih hbound⟩
    rcases hnameToken with hmissing | ⟨hkind, htaken⟩
    · exact .inr ⟨hmissing, by rw [hmissing]; rfl⟩
    · exact .inl (htaken.names hkind)
  | ifThen isIf hcondition hthen hbody noElse hend ihCondition ihBody =>
    have hconditionRead := hsound.advance.of_leadsTo hcondition.leadsTo
    obtain ⟨hbranch, hthenToken, _⟩ := hconditionRead.expect hthen
    obtain ⟨_, hendToken, _⟩ := (hbranch.of_leadsTo hbody.leadsTo).expect hend
    exact List.forall_mem_cons.mpr ⟨⟨⟨isIf, hthenToken, hendToken, rfl⟩, hsound.next.file⟩,
      List.forall_mem_append.mpr ⟨ihCondition hsound.advance, ihBody hbranch⟩⟩
  | ifThenElse isIf hcondition hthen hbody isElse hotherwise hend ihCondition ihBody ihOtherwise =>
    have hconditionRead := hsound.advance.of_leadsTo hcondition.leadsTo
    obtain ⟨hbranch, hthenToken, _⟩ := hconditionRead.expect hthen
    have hother := (hbranch.of_leadsTo hbody.leadsTo).advance
    obtain ⟨_, hendToken, _⟩ := (hother.of_leadsTo hotherwise.leadsTo).expect hend
    exact List.forall_mem_cons.mpr ⟨⟨⟨isIf, hthenToken, isElse, hendToken⟩, hsound.next.file⟩,
      List.forall_mem_append.mpr ⟨ihCondition hsound.advance,
        List.forall_mem_append.mpr ⟨ihBody hbranch, ihOtherwise hother⟩⟩⟩
  | comparison noLet noIf hoperands ih => exact ih hsound
  | chain hfirst hrest ihFirst ihRest =>
    exact Expression.forall_nodes_foldl (ihFirst hsound)
      (ihRest (hsound.of_leadsTo hfirst.leadsTo))
  | nothing noOperator =>
    intro step hstep
    cases hstep
  | @more levels level state afterOperand after operand steps isOperator hoperand hrest ihOperand
      ihRest =>
    have hoperator : ∀ left, (Expression.binary left state.next operand).Kept file := fun left =>
      ⟨Level.isBinary_of_holds isOperator, hsound.next.file⟩
    exact List.forall_mem_cons.mpr ⟨⟨hoperator, ihOperand hsound.advance⟩,
      ihRest (hsound.advance.of_leadsTo hoperand.leadsTo)⟩
  | literal hnumber ih => exact ih hsound
  | reference isName => exact .leaf ⟨hsound.next.names isName, hsound.next.file⟩ rfl
  | group isLeft hinner hright ih => exact ih hsound.advance
  | invalid isInvalid => exact .leaf (.erroneous hsound.next _) rfl
  | missing closes => exact .leaf (.erroneous hsound.next _) rfl
  | misplaced noClose noPrimary noInvalid => exact .leaf (.erroneous hsound.next _) rfl
  | integer isWhole noPoint short =>
    exact .leaf ⟨⟨_, hsound.next.counts isWhole, rfl⟩, hsound.next.file⟩ rfl
  | tooLong isWhole noPoint long => exact .leaf (.erroneous hsound.next _) rfl
  | real isWhole isPoint isFraction touching =>
    exact .leaf (.real hsound.next hsound.advance.advance.next isWhole isPoint isFraction) rfl
  | spacedReal isWhole isPoint isFraction spaced =>
    exact .leaf (.real hsound.next hsound.advance.advance.next isWhole isPoint isFraction) rfl
  | noFraction isWhole isPoint noFraction =>
    exact .leaf (.erroneous hsound.advance.next _) rfl

end Reads

end Parser

theorem Lexer.sound (source : Source) (file : String) :
    Parser.State.Sound file (.ofLexer { source, file }) := by
  have htiles := Lexer.drain_tiles { source, file } rfl
  intro token htoken
  rcases List.mem_append.mp htoken with htoken | htoken
  · have hfits := htiles.fits [] rfl token htoken
    exact ⟨(htiles.kind_ne token htoken).2, hfits.file, hfits.exists_text⟩
  · obtain ⟨cursor, heof, _⟩ := htiles.eof_eq
    have hlast : token = cursor.eof file := (List.mem_singleton.mp htoken).trans heof
    subst hlast
    exact ⟨by simp [Cursor.eof], rfl, by simp [Cursor.eof, Kind.varies]⟩

-- Every node of what is read of a text has tokens of its kinds, and says the truth about them. All
-- tokens and places that are not missing are those of the text.
theorem tree_well_kinded (source : Source) (file : String) :
    let tree := (Reading.ofSource source file).expression
    (tree.nodeWalk.foreign = none ∧
      ∀ node ∈ tree.nodeWalk.visited, node.WellKinded ∧ node.span.file = file) ∧
    tree.tokenWalk.foreign = none ∧
      ∀ token ∈ tree.tokenWalk.visited, token.isEmpty = false → token.span.file = file := by
  intro tree
  have hreads := Reading.reads source file
  have hsound := Lexer.sound source file
  rw [Expression.nodeWalk_of_genuine hreads.genuine, Expression.tokenWalk_of_genuine hreads.genuine]
  refine ⟨⟨rfl, fun node hnode => ?_⟩, rfl, fun token htoken hpresent => ?_⟩
  · have hkept := hreads.kept hsound node hnode
    exact ⟨hkept.kinds, hkept.file⟩
  · have hgathers := hreads.puts (Reading.inPlace source file)
    have hmem : token ∈ present (tree.frontier fun token => [token]) :=
      List.mem_filter.mpr ⟨htoken, by simp [hpresent]⟩
    exact (hsound token (hgathers.between token hmem).1).file

end Calculator
