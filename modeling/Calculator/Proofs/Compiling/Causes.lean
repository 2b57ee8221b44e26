import Calculator.Proofs.Compiling.Readiness
import Calculator.Proofs.Compiling.Scopes
import Calculator.Proofs.Parsing.Kinds

namespace Calculator

-- That the evaluation of an expression binds a name on its way, also if it stops at an error later.
inductive Finishes (policy : DivisionPolicy) (otherwise : Float) (name : String) :
    Expression → Store → Prop where
  | binding {letToken nameToken equals : Token} {body : Expression} {store after : Store}
      {value : Float} (hbody : Evaluates policy otherwise body store (.ok (value, after))) :
      Finishes policy otherwise name (.binding letToken nameToken name equals body) store
  | body {letToken nameToken equals : Token} {other : String} {body : Expression} {store : Store}
      (hname : Finishes policy otherwise name body store) :
      Finishes policy otherwise name (.binding letToken nameToken other equals body) store
  | left {left right : Expression} {operator : Token} {store : Store}
      (hname : Finishes policy otherwise name left store) :
      Finishes policy otherwise name (.binary left operator right) store
  | right {left right : Expression} {operator : Token} {store middle : Store} {x : Float}
      (hleft : Evaluates policy otherwise left store (.ok (x, middle)))
      (hname : Finishes policy otherwise name right middle) :
      Finishes policy otherwise name (.binary left operator right) store
  | ifCondition {ifToken thenToken endToken elseToken : Token} {condition body : Expression}
      {store : Store} (hname : Finishes policy otherwise name condition store) :
      Finishes policy otherwise name
        (.ifThen ifToken condition thenToken body endToken elseToken) store
  | ifTrue {ifToken thenToken endToken elseToken : Token} {condition body : Expression}
      {store middle : Store} {x : Float}
      (hcondition : Evaluates policy otherwise condition store (.ok (x, middle)))
      (hnonzero : (x == Decimal.zero) = false)
      (hname : Finishes policy otherwise name body middle) :
      Finishes policy otherwise name
        (.ifThen ifToken condition thenToken body endToken elseToken) store
  | elseCondition {ifToken thenToken elseToken endToken : Token}
      {condition body other : Expression} {store : Store}
      (hname : Finishes policy otherwise name condition store) :
      Finishes policy otherwise name
        (.ifThenElse ifToken condition thenToken body elseToken other endToken) store
  | thenTrue {ifToken thenToken elseToken endToken : Token} {condition body other : Expression}
      {store middle : Store} {x : Float}
      (hcondition : Evaluates policy otherwise condition store (.ok (x, middle)))
      (hnonzero : (x == Decimal.zero) = false)
      (hname : Finishes policy otherwise name body middle) :
      Finishes policy otherwise name
        (.ifThenElse ifToken condition thenToken body elseToken other endToken) store
  | elseFalse {ifToken thenToken elseToken endToken : Token} {condition body other : Expression}
      {store middle : Store} {x : Float}
      (hcondition : Evaluates policy otherwise condition store (.ok (x, middle)))
      (hzero : (x == Decimal.zero) = true)
      (hname : Finishes policy otherwise name other middle) :
      Finishes policy otherwise name
        (.ifThenElse ifToken condition thenToken body elseToken other endToken) store

-- The node that an error is due to, told with the bindings made before it.
inductive EvaluationError.DueTo (policy : DivisionPolicy) (nodes : List Expression)
    (environment : Environment Float) : EvaluationError → Prop where
  | unbound {token : Token} {name : String} (hnode : .reference token name ∈ nodes)
      (hunbound : name ∉ environment.names) :
      DueTo policy nodes environment (.undefined name (some token.span))
  | zeroDivisor {left right : Expression} {operator : Token}
      (hnode : .binary left operator right ∈ nodes) (hslash : operator.kind = .slash)
      (hpolicy : policy = .error) :
      DueTo policy nodes environment (.divisionByZero operator.span)

theorem EvaluationError.DueTo.mono {policy : DivisionPolicy} {nodes nodes' : List Expression}
    {environment : Environment Float} {error : EvaluationError}
    (h : error.DueTo policy nodes environment) (hnodes : nodes ⊆ nodes') :
    error.DueTo policy nodes' environment := by
  cases h with
  | unbound hnode hunbound => exact .unbound (hnodes hnode) hunbound
  | zeroDivisor hnode hslash hpolicy => exact .zeroDivisor (hnodes hnode) hslash hpolicy

theorem Program.andThen_of_ok {first : Program} {next : Float → Program}
    {environment middle : Environment Float} {value : Float}
    (h : first environment = .ok value middle) :
    first.andThen next environment = next value middle := by
  simp only [andThen, h]

namespace Program.Meets

variable {before after : Environment Float → Prop} {policy : DivisionPolicy} {program : Program}

theorem keeps_operation {property : Environment Float → Prop} {operation : Operator}
    {token : Token} (hoperation : Operator.ofKind? token.kind = some operation) (x y : Float) :
    (Program.ofResult (operation.apply policy token.span x y)).Meets property property
      fun _ last => property last := by
  refine .operation hoperation ?_ x y
  exact fun _ _ _ hkept => hkept

theorem dueTo_parent {child node : Expression} (hchild : child ∈ node.children)
    (h : program.Meets before after fun error last => error.DueTo policy child.nodes last) :
    program.Meets before after fun error last => error.DueTo policy node.nodes last :=
  h.mono (fun _ hafter => hafter) fun _ _ hdue => hdue.mono (Expression.nodes_subset hchild)

end Program.Meets

namespace Compiles

variable {settings : Settings} {expression : Expression} {program : Program} {otherwise : Float}

-- Any error is due to a node of the expression.
theorem dueTo (h : Compiles settings expression program) :
    program.Meets (fun _ => True) (fun _ => True)
      fun error last => error.DueTo settings.divisionByZero expression.nodes last := by
  induction h with
  | integer hnumber value => exact .constant _
  | real whole point fraction value => exact .constant value
  | reference token name =>
    refine .reference fun environment _ hnone => ?_
    refine .unbound List.mem_cons_self fun hname => ?_
    obtain ⟨value, hvalue⟩ := Environment.exists_find?_of_mem hname
    rw [hnone] at hvalue
    cases hvalue
  | binary hoperation hleft hright ihLeft ihRight =>
    refine (ihLeft.dueTo_parent (by simp [Expression.children])).andThen fun x =>
      (ihRight.dueTo_parent (by simp [Expression.children])).andThen fun y => ?_
    exact .operation hoperation
      (fun hslash hpolicy _ _ => .zeroDivisor List.mem_cons_self hslash hpolicy) x y
  | ifThen hotherwise hcondition hbody ihCondition ihBody =>
    exact (ihCondition.dueTo_parent (by simp [Expression.children])).branch
      (ihBody.dueTo_parent (by simp [Expression.children])) (.constant _)
  | ifThenElse hcondition hbody hother ihCondition ihBody ihOther =>
    exact (ihCondition.dueTo_parent (by simp [Expression.children])).branch
      (ihBody.dueTo_parent (by simp [Expression.children]))
      (ihOther.dueTo_parent (by simp [Expression.children]))
  | binding hbody ih =>
    exact (ih.dueTo_parent (by simp [Expression.children])).bindName fun _ _ _ => trivial

theorem keeps (h : Compiles settings expression program) {property : Environment Float → Prop}
    (hdefine : ∀ environment name value, property environment →
      property (environment.define name value)) :
    program.Meets property property fun _ last => property last := by
  induction h with
  | integer hnumber value => exact .constant _
  | real whole point fraction value => exact .constant value
  | reference token name => exact .reference fun _ hkept _ => hkept
  | binary hoperation hleft hright ihLeft ihRight =>
    exact ihLeft.andThen fun x => ihRight.andThen fun y => .keeps_operation hoperation x y
  | ifThen hotherwise hcondition hbody ihCondition ihBody =>
    exact ihCondition.branch ihBody (.constant _)
  | ifThenElse hcondition hbody hother ihCondition ihBody ihOther =>
    exact ihCondition.branch ihBody ihOther
  | binding hbody ih => exact ih.bindName fun environment value => hdefine environment _ value

theorem means (h : Compiles settings expression program) (hdigits : expression.Compilable)
    (hotherwise : ∀ value, settings.falseValue.toFloat? = some value → value = otherwise) :
    Means settings.divisionByZero otherwise expression program := by
  induction h with
  | integer hnumber value =>
    rw [Compiler.wholeValue_of_digits hdigits] at hnumber
    cases hnumber
    exact fun environment => .integer
  | real whole point fraction value => exact fun environment => .real
  | reference token name => exact .reference token name
  | @binary left right operator operation first second hoperation hleft hright ihLeft ihRight =>
    have hfirst : Means settings.divisionByZero otherwise left ({ first } : Chain).program := by
      rw [Chain.program_first]
      exact ihLeft hdigits.1
    have hsecond :
        Means settings.divisionByZero otherwise right ({ first := second } : Chain).program := by
      rw [Chain.program_first]
      exact ihRight hdigits.2.2
    have hchains := Means.binary hoperation hfirst hsecond
    rwa [Chain.step_eq_andThen, Chain.program_first, Chain.program_first] at hchains
  | ifThen hvalue hcondition hbody ihCondition ihBody =>
    cases hotherwise _ hvalue
    exact (ihCondition hdigits.1).ifThen (ihBody hdigits.2)
  | ifThenElse hcondition hbody hother ihCondition ihBody ihOther =>
    exact (ihCondition hdigits.1).ifThenElse (ihBody hdigits.2.1) (ihOther hdigits.2.2)
  | binding hbody ih => exact (ih hdigits).binding

end Compiles

theorem Means.exists_run {policy : DivisionPolicy} {otherwise value : Float}
    {expression : Expression} {program : Program} {environment : Environment Float} {store : Store}
    (h : Means policy otherwise expression program)
    (hvalue : Evaluates policy otherwise expression environment.store (.ok (value, store))) :
    ∃ after, program environment = .ok value after ∧ after.store = store := by
  have hanswer := hvalue.functional (h environment)
  generalize program environment = run at hanswer
  cases run with
  | error error after => cases hanswer
  | ok result after =>
    cases hanswer
    exact ⟨after, rfl, rfl⟩

namespace Compiles

variable {settings : Settings} {expression : Expression} {program : Program} {otherwise : Float}

-- A name that is bound on the way is bound where the run ends.
theorem binds (h : Compiles settings expression program) (name : String)
    (hdigits : expression.Compilable)
    (hotherwise : ∀ value, settings.falseValue.toFloat? = some value → value = otherwise) :
    program.Meets
      (fun environment =>
        Finishes settings.divisionByZero otherwise name expression environment.store)
      (fun environment => name ∈ environment.names) fun _ last => name ∈ last.names := by
  -- names stay bound behind the part that binds this one
  have hkeeps : ∀ {other : Expression} {part : Program}, Compiles settings other part →
      part.Meets (fun environment => name ∈ environment.names)
        (fun environment => name ∈ environment.names) fun _ last => name ∈ last.names :=
    fun hpart => hpart.keeps fun environment other value hname => by
      rw [Environment.names_define]
      exact Finset.mem_insert_of_mem hname
  induction h with
  | integer | real | reference => nofun
  | binary hoperation hleft hright ihLeft ihRight =>
    intro environment hname
    cases hname with
    | left hname =>
      exact ((ihLeft hdigits.1).andThen fun x => (hkeeps hright).andThen fun y =>
        .keeps_operation hoperation x y) environment hname
    | right hvalue hname =>
      obtain ⟨middle, hrun, rfl⟩ := (hleft.means hdigits.1 hotherwise).exists_run hvalue
      rw [Program.andThen_of_ok hrun]
      refine (ihRight hdigits.2.2).andThen (fun y => ?_) middle hname
      exact .keeps_operation hoperation _ y
  | ifThen hvalue hcondition hbody ihCondition ihBody =>
    intro environment hname
    cases hname with
    | ifCondition hname =>
      exact (ihCondition hdigits.1).branch (hkeeps hbody) (.constant _) environment hname
    | ifTrue htest hnonzero hname =>
      obtain ⟨middle, hrun, rfl⟩ := (hcondition.means hdigits.1 hotherwise).exists_run htest
      simp only [Program.branch, hrun, hnonzero]
      exact ihBody hdigits.2 middle hname
  | ifThenElse hcondition hbody hother ihCondition ihBody ihOther =>
    intro environment hname
    cases hname with
    | elseCondition hname =>
      exact (ihCondition hdigits.1).branch (hkeeps hbody) (hkeeps hother) environment hname
    | thenTrue htest hnonzero hname =>
      obtain ⟨middle, hrun, rfl⟩ := (hcondition.means hdigits.1 hotherwise).exists_run htest
      simp only [Program.branch, hrun, hnonzero]
      exact ihBody hdigits.2.1 middle hname
    | elseFalse htest hzero hname =>
      obtain ⟨middle, hrun, rfl⟩ := (hcondition.means hdigits.1 hotherwise).exists_run htest
      simp only [Program.branch, hrun, hzero]
      exact ihOther hdigits.2.2 middle hname
  | binding hbody ih =>
    intro environment hname
    cases hname with
    | binding hvalue =>
      obtain ⟨after, hrun, _⟩ := (hbody.means hdigits hotherwise).exists_run hvalue
      simp only [Program.bindName, hrun, Run.Within, Environment.names_define]
      exact Finset.mem_insert_self _ _
    | body hname =>
      refine (ih hdigits).bindName (fun environment value hbound => ?_) environment hname
      rw [Environment.names_define]
      exact Finset.mem_insert_of_mem hbound

end Compiles

theorem Reading.fits_of_clean {source : Source} {file : String}
    (h : (ofSource source file).diagnostics = []) {node : Expression}
    (hnode : node ∈ (ofSource source file).expression.nodes) :
    ∀ token ∈ node.frontier fun token => [token], token.Fits source.visible file := by
  intro token htoken
  obtain ⟨d, hd, htree⟩ := derivation_of_clean h
  have hfrontier : Expression.frontier (fun token => [token]) d.tree =
      d.tokens.filter fun token => !token.isParenthesis := d.fringe_tree fun token => [token]
  rw [htree] at hnode
  have hmem := Expression.frontier_subset_of_mem hnode _ htoken
  rw [hfrontier, hd.tokens] at hmem
  exact (Lexer.drain_tiles { source, file } rfl).fits [] rfl token (List.mem_filter.mp hmem).1

theorem Token.Fits.cut_of_text {token : Token} {text : List Char} {file name : String}
    (h : token.Fits text file) (htext : token.text = some name) :
    token.span.cut text = name.toList := by
  rw [h.cut, lexeme, htext]
  rfl

theorem Token.Fits.cut_of_slash {token : Token} {text : List Char} {file : String}
    (h : token.Fits text file) (hslash : token.kind = .slash) : token.span.cut text = ['/'] := by
  have hnone : token.text = none := by
    rw [← Option.isSome_eq_false_iff.trans Option.isNone_iff_eq_none, h.text, hslash]
    rfl
  rw [h.cut, lexeme, hnone, hslash]
  rfl

-- The program of a text without diagnostics fails at a name of the tree that is written where the
-- error points and that the evaluation had not bound, or at the `/` of a division of the tree,
-- which is refused under the strict policy only.
theorem errors_point_at_their_cause {source : Source} {file : String} {settings : Settings}
    {limit : Nat} {program : Program} {error : EvaluationError}
    (hclean : (Reading.ofSource source file).diagnostics = [])
    (hprogram :
      Compiler.generate limit settings (Reading.ofSource source file).expression = .ok program)
    (herror : program.value = .error error) :
    let tree := (Reading.ofSource source file).expression
    let otherwise := settings.falseValue.toFloat?.getD Decimal.zero
    (∃ token name, .reference token name ∈ tree.nodes ∧
      error.message = "Undefined variable " ++ Text.quoted name ∧
      error.span = some token.span ∧ token.span.cut source.visible = name.toList ∧
      ¬Finishes settings.divisionByZero otherwise name tree fun _ => none) ∨
    ∃ left operator right, .binary left operator right ∈ tree.nodes ∧
      operator.kind = .slash ∧ settings.divisionByZero = .error ∧
      error.message = "Division by zero" ∧ error.span = some operator.span ∧
      operator.span.cut source.visible = ['/'] := by
  intro tree otherwise
  have hready := Reading.ready_of_clean hclean (Nat.le_refl _)
  have hcompiles := Compiler.compiles_of_compile (Compiler.compile_of_generate hprogram)
  have hdue := hcompiles.dueTo {} trivial
  have hotherwise : ∀ value, settings.falseValue.toFloat? = some value → value = otherwise :=
    fun value hvalue => by simp [otherwise, hvalue]
  have hbinds := fun name => hcompiles.binds name hready.compilable hotherwise {}
  unfold Program.value at herror
  generalize program {} = run at herror hdue hbinds
  cases run with
  | ok value after => cases herror
  | error reason after =>
    cases herror
    cases hdue with
    | @unbound token name hnode hunbound =>
      have hfits := Reading.fits_of_clean hclean hnode token (by simp [Expression.frontier])
      have hnames := ((Reading.reads source file).kept (Lexer.sound source file) _ hnode).kinds
      exact .inl ⟨token, name, hnode, rfl, rfl, hfits.cut_of_text hnames.text,
        fun hname => hunbound (hbinds name hname)⟩
    | @zeroDivisor left right operator hnode hslash hpolicy =>
      have hfits := Reading.fits_of_clean hclean hnode operator (by simp [Expression.frontier])
      exact .inr ⟨left, operator, right, hnode, hslash, hpolicy, rfl, rfl,
        hfits.cut_of_slash hslash⟩

-- In `let a=a` the name is asked for before it is bound.
theorem name_in_its_own_binding :
    ∃ program, Compiler.generate Reading.maxHeight {}
          (Reading.ofSource (.ofString "let a=a") "f").expression = .ok program ∧
      program.value = .error (.undefined "a" (some ⟨1, 7, 6, 1, "f"⟩)) ∧
      ∃ name, Span.cut ⟨1, 7, 6, 1, "f"⟩ "let a=a".toList = name.toList ∧
        ¬Finishes .error Decimal.zero name
          (Reading.ofSource (.ofString "let a=a") "f").expression fun _ => none := by
  have hclean : (Reading.ofSource (.ofString "let a=a") "f").diagnostics = [] := by cbv
  have htree : (Reading.ofSource (.ofString "let a=a") "f").expression =
      .binding ⟨.letWord, ⟨1, 1, 0, 3, "f"⟩, none⟩ ⟨.identifier, ⟨1, 5, 4, 1, "f"⟩, some "a"⟩ "a"
        ⟨.equals, ⟨1, 6, 5, 1, "f"⟩, none⟩
        (.reference ⟨.identifier, ⟨1, 7, 6, 1, "f"⟩, some "a"⟩ "a") := by cbv
  obtain ⟨program, hprogram, herror⟩ :
      ∃ program, Compiler.generate Reading.maxHeight {}
          (Reading.ofSource (.ofString "let a=a") "f").expression = .ok program ∧
        program.value = .error (.undefined "a" (some ⟨1, 7, 6, 1, "f"⟩)) := by
    rw [Compiler.generate_eq_compile {} (Reading.ready_of_clean hclean (Nat.le_refl _)), htree]
    exact ⟨_, rfl, rfl⟩
  refine ⟨program, hprogram, herror, ?_⟩
  rcases errors_point_at_their_cause hclean hprogram herror with
    ⟨token, name, _, _, hspan, hcut, hname⟩ | ⟨_, _, _, _, _, _, hmessage, _⟩
  · rw [← Option.some.inj hspan] at hcut
    exact ⟨name, hcut, hname⟩
  · exact absurd hmessage (by decide)

end Calculator
