import Calculator.Evaluation
import Calculator.Proofs.Compiling.Congruence
import Calculator.Proofs.Compiling.Readiness
import Calculator.Proofs.Lexing.Joining
import Calculator.Proofs.Parsing.Lockstep

namespace Calculator

-- Tokens with the same characters.
structure Token.SameText (token token' : Token) : Prop where
  kind : token.kind = token'.kind
  text : token.text = token'.text

theorem Token.sameText_iff {token token' : Token} :
    token.SameText token' ↔ token.kind = token'.kind ∧ token.text = token'.text :=
  ⟨fun h => ⟨h.kind, h.text⟩, fun h => ⟨h.1, h.2⟩⟩

instance : DecidableRel Token.SameText := fun _ _ => decidable_of_iff _ Token.sameText_iff.symm

namespace Abreast

variable {related related' : Token → Token → Prop} {rest rest' : List Token} {last last' : Token}

theorem mono (h : Abreast related rest rest')
    (himp : ∀ {token token'}, related token token' → related' token token') :
    Abreast related' rest rest' := by
  induction h with
  | nil => exact .nil
  | cons hfirst htouching _ ih => exact .cons (himp hfirst) htouching ih

theorem zip (h : Abreast related rest rest') :
    Abreast (fun token token' => (token, token') ∈ rest.zip rest' ∧ related token token')
      rest rest' := by
  induction h with
  | nil => exact .nil
  | @cons first first' rest rest' hfirst htouching _ ih =>
    refine .cons ⟨List.mem_cons_self, hfirst⟩ htouching (ih.mono ?_)
    rintro token token' ⟨hmem, hrelated⟩
    exact ⟨List.mem_cons_of_mem _ hmem, hrelated⟩

theorem of_append_last (h : Abreast related (rest ++ [last]) (rest' ++ [last'])) :
    Abreast related rest rest' ∧ related last last' := by
  induction rest generalizing rest' with
  | nil =>
    cases rest' with
    | nil =>
      cases h with
      | cons hlast _ _ => exact ⟨.nil, hlast⟩
    | cons first' others' => simpa using h.length
  | cons first others ih =>
    cases rest' with
    | nil => simpa using h.length
    | cons first' others' =>
      cases h with
      | cons hfirst htouching htail =>
        obtain ⟨hothers, hlast⟩ := ih htail
        refine ⟨.cons hfirst (fun second hsecond second' hsecond' => ?_) hothers, hlast⟩
        rw [Option.mem_def] at hsecond hsecond'
        exact htouching second (by simp [hsecond]) second' (by simp [hsecond'])

end Abreast

-- Two texts of the same words, of which the same ones touch a decimal point.
def SameButLayout (tokens tokens' : List Token) : Prop := Abreast Token.SameText tokens tokens'

instance (tokens tokens' : List Token) : Decidable (SameButLayout tokens tokens') :=
  inferInstanceAs (Decidable (Abreast _ _ _))

def Corresponds (tokens tokens' : List Token) (token token' : Token) : Prop :=
  (token, token') ∈ tokens.zip tokens'

-- A token that stands in a text, which is as long as it is spelled.
structure Token.Present (token : Token) : Prop where
  kind : token.kind ≠ .empty
  length : token.span.length = token.lexeme.length

namespace Token

variable {token token' : Token}

theorem SameText.alike (h : token.SameText token') (hpresent : token.Present)
    (hpresent' : token'.Present) : token.Alike token' := by
  have hlexeme : token.lexeme = token'.lexeme := by rw [lexeme, lexeme, h.kind, h.text]
  exact ⟨h.kind, h.text, by rw [hpresent.length, hpresent'.length, hlexeme]⟩

theorem Alike.moved_unplaced (h : token.Alike token') (hkind : token.kind ≠ .empty) :
    token.moved Span.unplaced = token'.moved Span.unplaced := by
  rw [moved_of_kind _ hkind, moved_of_kind _ (h.kind ▸ hkind)]
  simp only [Span.unplaced, h.kind, h.text, h.length]

end Token

theorem Lexer.present (source : Source) (file : String) :
    ∀ token ∈ ({ source, file } : Lexer).tokenize.1, token.Present := by
  intro token htoken
  refine ⟨?_, length_span_tokenize source file token htoken⟩
  rcases List.mem_append.mp htoken with htoken | htoken
  · exact kind_ne_empty source file token htoken
  · rw [List.mem_singleton.mp htoken, kind_eof]
    decide

namespace Reading

-- The same words are read alike, and the same is said about the same words.
theorem ofTokens_layout {tokens tokens' : List Token} {eof eof' : Token}
    (h : SameButLayout (tokens ++ [eof]) (tokens' ++ [eof']))
    (hpresent : ∀ token ∈ tokens ++ [eof], token.Present)
    (hpresent' : ∀ token ∈ tokens' ++ [eof'], token.Present) (heof : eof.kind = .eof) :
    (ofTokens tokens eof).expression.moved Span.unplaced =
        (ofTokens tokens' eof').expression.moved Span.unplaced ∧
      List.Forall₂ (Diagnostic.Matches (Corresponds (tokens ++ [eof]) (tokens' ++ [eof'])))
        (ofTokens tokens eof).diagnostics (ofTokens tokens' eof').diagnostics := by
  let related (token token' : Token) : Prop :=
    Corresponds (tokens ++ [eof]) (tokens' ++ [eof']) token token' ∧ token.SameText token'
  have halike : ∀ {token token'}, related token token' → token.Alike token' := by
    rintro token token' ⟨hcorresponds, hsame⟩
    obtain ⟨htoken, htoken'⟩ := List.of_mem_zip hcorresponds
    exact hsame.alike (hpresent token htoken) (hpresent' token' htoken')
  have hpairs : Pairs related (Token.moved Span.unplaced) (Token.moved Span.unplaced) := by
    refine ⟨halike, fun hrelated => (halike hrelated).moved_unplaced ?_, rfl⟩
    exact (hpresent _ (List.of_mem_zip hrelated.1).1).kind
  have hzip : Abreast related (tokens ++ [eof]) (tokens' ++ [eof']) := Abreast.zip h
  obtain ⟨habreast, hlast⟩ := hzip.of_append_last
  obtain ⟨hexpression, hdiagnostics⟩ := ofTokens_abreast hpairs habreast hlast heof
  refine ⟨hexpression, hdiagnostics.imp fun d d' hd => ⟨hd.kind, hd.message, ?_⟩⟩
  obtain ⟨token, token', hrelated, hspan, hspan'⟩ := hd.anchor
  exact ⟨token, token', hrelated.1, hspan, hspan'⟩

-- The name of the file stands in the tokens only.
theorem ofSource_inFile (source : Source) (file file' : String) :
    (ofSource source file').expression.moved Span.unplaced =
        (ofSource source file).expression.moved Span.unplaced ∧
      (ofSource source file').diagnostics.length = (ofSource source file).diagnostics.length := by
  let inFile (span : Span) : Span := { span with file := file' }
  have htiles := (Lexer.drain_tiles { source, file } rfl).moved id inFile (fun _ _ => rfl)
    fun _ _ => rfl
  obtain ⟨htokens, heof⟩ := Lexer.drain_of_tiles { source, file := file' } rfl htiles
  have hrigid : Span.Rigid inFile := ⟨fun _ => rfl, fun _ _ => Iff.rfl⟩
  obtain ⟨hexpression, hlength⟩ := ofTokens_moved hrigid (Lexer.kind_ne_empty source file)
    (Lexer.kind_eof { source, file })
  unfold ofSource
  dsimp only
  rw [htokens, heof]
  exact ⟨by rw [hexpression, Expression.moved_moved]; rfl, hlength⟩

end Reading

-- What a run of a program ends with, without places.
def Run.told : Run → Except String (Float × Environment Float)
  | .ok value environment => .ok (value, environment)
  | .error error _ => .error error.message

theorem Run.cases_of_told {run run' : Run} (h : run.told = run'.told) :
    (∃ value after, run = .ok value after ∧ run' = .ok value after) ∨
    ∃ error after error' after', run = .error error after ∧ run' = .error error' after' ∧
      error.message = error'.message := by
  cases run with
  | ok value after =>
    cases run' with
    | ok value' after' =>
      obtain ⟨rfl, rfl⟩ := Prod.mk.inj (Except.ok.inj h)
      exact .inl ⟨value, after, rfl, rfl⟩
    | error error' after' => cases h
  | error error after =>
    cases run' with
    | ok value' after' => cases h
    | error error' after' => exact .inr ⟨error, after, error', after', rfl, rfl, Except.error.inj h⟩

-- Programs that end alike from all bindings.
def TellTheSame (program program' : Program) : Prop :=
  ∀ environment, Run.told (program environment) = Run.told (program' environment)

namespace TellTheSame

theorem refl (program : Program) : TellTheSame program program := fun _ => rfl

theorem reference (name : String) (span span' : Span) :
    TellTheSame (.reference name span) (.reference name span') := by
  intro environment
  unfold Program.reference Environment.get
  cases environment.find? name <;> rfl

theorem operation (operator : Operator) (policy : DivisionPolicy) (span span' : Span)
    (x y : Float) :
    TellTheSame (.ofResult (operator.apply policy span x y))
      (.ofResult (operator.apply policy span' x y)) := by
  intro environment
  cases operator with
  | divide =>
    unfold Operator.apply Operator.quotient
    dsimp only
    split
    · cases policy <;> rfl
    · rfl
  | _ => rfl

theorem andThen {first first' : Program} {next next' : Float → Program}
    (h : TellTheSame first first') (hnext : ∀ value, TellTheSame (next value) (next' value)) :
    TellTheSame (first.andThen next) (first'.andThen next') := by
  intro environment
  unfold Program.andThen
  rcases Run.cases_of_told (h environment) with
    ⟨value, after, hfirst, hfirst'⟩ | ⟨error, after, error', after', hfirst, hfirst', hmessage⟩
  · rw [hfirst, hfirst']
    exact hnext value after
  · rw [hfirst, hfirst']
    exact congrArg Except.error hmessage

-- Where tokens stand changes neither values nor what is said about errors.
theorem congruence (settings : Settings) (move : Span → Span) :
    Congruence TellTheSame settings settings (Token.moved move) where
  kind := Token.kind_moved move
  text := Token.text_moved move
  falseValue := rfl
  constant _ := refl _
  reference name _ := reference name _ _
  binding _ _ := refl _
  operation operator _ x y := operation operator _ _ _ x y
  andThen := andThen

end TellTheSame

-- The sorts of errors that evaluating a text can end with.
inductive ErrorClass where
  | codeGeneration
  | wrongType
  | wrongValue
  | overflow
  | evaluation
  deriving DecidableEq

def Failure.errorClass : Failure → ErrorClass
  | compile (.foreign _) => .wrongType
  | compile (.unreadable _) => .wrongValue
  | compile .valueTooLarge => .overflow
  | compile _ => .codeGeneration
  | run _ => .evaluation

-- The value of a text, or the sort and the message of the error that it ends with.
def told (result : Except Failure Float) : Except (ErrorClass × String) Float :=
  result.mapError fun failure => (failure.errorClass, failure.message)

theorem TellTheSame.told_value {program program' : Program} (h : TellTheSame program program') :
    told (program.value.mapError .run) = told (program'.value.mapError .run) := by
  unfold Program.value
  rcases Run.cases_of_told (h {}) with
    ⟨value, after, hrun, hrun'⟩ | ⟨error, after, error', after', hrun, hrun', hmessage⟩
  · rw [hrun, hrun']
  · rw [hrun, hrun']
    exact congrArg (fun message => Except.error (ErrorClass.evaluation, message)) hmessage

-- Expressions that differ in places only are compiled and run alike.
theorem Compiler.told_generate {limit : Nat} {expression expression' : Expression}
    (settings : Settings) (hready : expression.Ready limit) (hready' : expression'.Ready limit)
    (h : expression.moved Span.unplaced = expression'.moved Span.unplaced) :
    (∃ error, generate limit settings expression = .error error ∧
      generate limit settings expression' = .error error) ∨
    ∃ program program', generate limit settings expression = .ok program ∧
      generate limit settings expression' = .ok program' ∧
      told (program.value.mapError .run) = told (program'.value.mapError .run) := by
  have hcongruence := TellTheSame.congruence settings Span.unplaced
  have hrefused : ∀ {expression : Expression} {error : CompileError}, expression.Ready limit →
      compile settings expression = .error error → error = .valueTooLarge := fun hready herror =>
    eq_valueTooLarge_of_ready hready ((generate_eq_compile settings hready).trans herror)
  rw [generate_eq_compile settings hready, generate_eq_compile settings hready']
  -- both are compared with the expression without places, which is the same for both
  have hmade := compile_agrees hcongruence expression
  have hmade' := compile_agrees hcongruence expression'
  rw [show expression.mapTokens _ = expression'.mapTokens _ from h] at hmade
  rcases hmade with ⟨error, herror, hmoved⟩ | ⟨program, moved, hprogram, hmoved, hsame⟩
  · rcases hmade' with ⟨error', herror', _⟩ | ⟨_, _, _, hmoved', _⟩
    · rw [hrefused hready herror] at herror
      rw [hrefused hready' herror'] at herror'
      exact .inl ⟨_, herror, herror'⟩
    · rw [hmoved] at hmoved'
      cases hmoved'
  · rcases hmade' with ⟨_, _, hmoved'⟩ | ⟨program', moved', hprogram', hmoved', hsame'⟩
    · rw [hmoved] at hmoved'
      cases hmoved'
    · rw [hmoved] at hmoved'
      cases hmoved'
      exact .inr ⟨program, program', hprogram, hprogram',
        hsame.told_value.trans hsame'.told_value.symm⟩

theorem evaluate_layout {source source' : Source} (settings : Settings)
    (hexpression : (Reading.ofSource source).expression.moved Span.unplaced =
      (Reading.ofSource source').expression.moved Span.unplaced)
    (hlength : (Reading.ofSource source).diagnostics.length =
      (Reading.ofSource source').diagnostics.length) :
    told (evaluate source settings) = told (evaluate source' settings) := by
  unfold evaluate
  by_cases hclean : (Reading.ofSource source).diagnostics = []
  · have hclean' : (Reading.ofSource source').diagnostics = [] := by
      rwa [hclean, eq_comm, List.length_nil, List.length_eq_zero_iff] at hlength
    simp only [ne_eq, hclean, hclean', not_true_eq_false, if_false]
    rcases Compiler.told_generate settings (Reading.ready_of_clean hclean (Nat.le_refl _))
        (Reading.ready_of_clean hclean' (Nat.le_refl _)) hexpression with
      ⟨error, hmade, hmade'⟩ | ⟨program, program', hmade, hmade', hsame⟩
    · rw [hmade, hmade']
    · rw [hmade, hmade']
      exact hsame
  · have hclean' : (Reading.ofSource source').diagnostics ≠ [] := by
      rwa [ne_eq, ← List.length_eq_zero_iff, ← hlength, List.length_eq_zero_iff]
    simp only [ne_eq, hclean, hclean', not_false_eq_true, if_true]
    have hmessage : CompileError.message (.diagnosed (Reading.ofSource source).diagnostics) =
        CompileError.message (.diagnosed (Reading.ofSource source').diagnostics) :=
      congrArg (fun count : Nat => "Expression has " ++ toString count ++ " diagnostic(s)") hlength
    exact congrArg (fun message => Except.error (ErrorClass.codeGeneration, message)) hmessage

-- Of two texts of the same words the trees differ in places only, the diagnostics say the same
-- about the same words, and the values or errors are the same under all settings.
theorem layout_is_insignificant {source source' : Source} {file file' : String}
    (h : SameButLayout ({ source, file } : Lexer).tokenize.1
      ({ source := source', file := file' } : Lexer).tokenize.1) :
    (Reading.ofSource source file).expression.moved Span.unplaced =
        (Reading.ofSource source' file').expression.moved Span.unplaced ∧
      List.Forall₂
        (Diagnostic.Matches (Corresponds ({ source, file } : Lexer).tokenize.1
          ({ source := source', file := file' } : Lexer).tokenize.1))
        (Reading.ofSource source file).diagnostics (Reading.ofSource source' file').diagnostics ∧
      ∀ settings, told (evaluate source settings) = told (evaluate source' settings) := by
  obtain ⟨hexpression, hdiagnostics⟩ := Reading.ofTokens_layout h (Lexer.present source file)
    (Lexer.present source' file') (Lexer.kind_eof _)
  refine ⟨hexpression, hdiagnostics, fun settings => ?_⟩
  obtain ⟨hfile, hlength⟩ := Reading.ofSource_inFile source file unnamedInput
  obtain ⟨hfile', hlength'⟩ := Reading.ofSource_inFile source' file' unnamedInput
  exact evaluate_layout settings ((hfile.trans hexpression).trans hfile'.symm)
    ((hlength.trans hdiagnostics.length_eq).trans hlength'.symm)

-- A product over two lines.
theorem product_over_two_lines :
    SameButLayout ({ source := .ofString "2.5*x" } : Lexer).tokenize.1
        ({ source := .ofString " 2.5\n* x" } : Lexer).tokenize.1 ∧
      ∀ settings, told (evaluate (.ofString "2.5*x") settings) =
        told (evaluate (.ofString " 2.5\n* x") settings) := by
  have h : SameButLayout ({ source := .ofString "2.5*x" } : Lexer).tokenize.1
      ({ source := .ofString " 2.5\n* x" } : Lexer).tokenize.1 := by
    have htokens : ({ source := .ofString "2.5*x" } : Lexer).tokenize.1 =
        [⟨.number, ⟨1, 1, 0, 1, "<input>"⟩, some "2"⟩, ⟨.period, ⟨1, 2, 1, 1, "<input>"⟩, none⟩,
          ⟨.number, ⟨1, 3, 2, 1, "<input>"⟩, some "5"⟩, ⟨.star, ⟨1, 4, 3, 1, "<input>"⟩, none⟩,
          ⟨.identifier, ⟨1, 5, 4, 1, "<input>"⟩, some "x"⟩,
          ⟨.eof, ⟨1, 6, 5, 0, "<input>"⟩, none⟩] := by
      cbv
    have htokens' : ({ source := .ofString " 2.5\n* x" } : Lexer).tokenize.1 =
        [⟨.number, ⟨1, 2, 1, 1, "<input>"⟩, some "2"⟩, ⟨.period, ⟨1, 3, 2, 1, "<input>"⟩, none⟩,
          ⟨.number, ⟨1, 4, 3, 1, "<input>"⟩, some "5"⟩, ⟨.star, ⟨2, 1, 5, 1, "<input>"⟩, none⟩,
          ⟨.identifier, ⟨2, 3, 7, 1, "<input>"⟩, some "x"⟩,
          ⟨.eof, ⟨2, 4, 8, 0, "<input>"⟩, none⟩] := by
      cbv
    rw [htokens, htokens']
    decide
  exact ⟨h, (layout_is_insignificant h).2.2⟩

end Calculator
