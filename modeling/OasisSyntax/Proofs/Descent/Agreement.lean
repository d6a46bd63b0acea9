import OasisSyntax.Proofs.Descent.Expectations

/-!
# The procedures agree with the parser

Every procedure does in any context what the parser does there: it takes the same tokens,
leaves the same events, and gets stuck at the same token with the same complaint.  The
proofs follow the procedures, and go by induction on the same measure.
-/

namespace OasisSyntax

open Descent Outcome

variable {goal : Goal} {tokens : List (Spanned Token)}

namespace Descent

/-! ## Parameters -/

theorem names_ends (before : List String) (tokens : List (Spanned Token)) :
    (names before tokens).Ensures fun _ rest => lead rest ≠ .comma := by
  rw [names]
  split
  · rename_i ends
    exact .value (by rw [ends]; decide)
  · refine .andThen fun name rest fewer _ => ?_
    split
    · refine .andThen fun comma rest fewer _ => .upTo ?_
      exact names_ends _ rest
    · rename_i other
      exact .value other
termination_by tokens.length

theorem names_mirrors (func : FuncContext goal) (before : List String) (opened : List Nat)
    (tokens : List (Spanned Token)) :
    (names before tokens).Mirrors ⟨.paramStart before func, opened⟩ tokens
      fun params => ⟨.paramEnd params func, opened⟩ := by
  rw [names]
  split
  · rename_i ends
    exact .value (.exchange (ends ▸ State.alike_paramStart_end before func) opened)
  · rename_i noEnd
    refine .turn (.andThen (expect_mirrors
      ((State.awaits_paramStart noEnd before func).expects opened) (by decide))
      fun name rest fewer _ => ?_)
    split
    · rename_i comma
      have goesOn (token : Token) (same : token.kind = .comma) :
          (State.paramEnd (before ++ [name.literal]) func).step? token =
            some (.paramStart (before ++ [name.literal]) func) := by
        rw [State.step?, same]
        exact if_pos same
      refine .andThen (expect_mirrors (.of_step comma goesOn rfl rfl opened) (by decide))
        fun comma rest fewer _ => .upTo ?_
      exact names_mirrors func _ opened rest
    · exact .value (.refl ..)
termination_by tokens.length

private theorem params_mirrors (func : FuncContext goal) (opened : List Nat)
    (tokens : List (Spanned Token)) :
    (params tokens).Mirrors ⟨.paramsStart func, opened⟩ tokens
      fun params => ⟨.blockStart (.funcBody params func), opened⟩ := by
  rw [params]
  refine .andThen (expect_mirrors ((State.awaits_paramsStart func).expects opened)
    (by decide)) fun paren rest fewer _ => ?_
  refine .andThen (names_mirrors func [] opened rest) fun params rest fewer done => ?_
  have noComma := names_ends _ _ _ _ _ done
  refine .andThen (expect_mirrors ((State.awaits_paramEnd noComma params func).expects opened)
    (by decide)) fun paren rest fewer _ => ?_
  exact .value (.refl ..)

/-! ## Statements -/

private theorem close_mirrors (start : Nat) (stmt : Stmt) (required : Bool)
    (outer : SeqContext goal) (opened : List Nat) (tokens : List (Spanned Token)) :
    (close start stmt required tokens).Mirrors
      ⟨.statementEnd stmt required outer, start :: opened⟩ tokens
      fun stmt => ⟨.statement (outer.push stmt), opened⟩ := by
  rw [close]
  split
  · rename_i semi
    obtain ⟨token, rest, rfl, terminator⟩ := exists_of_lead semi (by decide)
    exact Leads.end_statement terminator stmt required outer start opened rest
  · rename_i other
    split
    · rename_i required
      subst required
      have kept : (State.statementEnd stmt true outer).settle (lead tokens) =
          .statementEnd stmt true outer := rfl
      refine .stuck ⟨⟨fun token first => ?_, ?_⟩, fun actual same => ?_⟩
      · cases tokens with
        | nil => contradiction
        | cons head rest =>
          obtain rfl := Option.some.inj first
          exact if_neg other
      · simp [State.ended?, State.finishForm, State.finishExpr, other]
      · rw [State.verdict, kept]
        rfl
    · rename_i free
      obtain rfl : required = false := by simpa using free
      exact Leads.end_free_statement other stmt outer start opened

theorem statements_end (inBlock : Bool) (done : List Stmt) (tokens : List (Spanned Token)) :
    (statements inBlock done tokens).Ensures fun _ rest =>
      lead rest = .eof ∨ inBlock ∧ lead rest = .rbrace := by
  rw [statements]
  split
  · rename_i ends
    exact .value ends
  · refine .andThen fun stmt rest fewer _ => .upTo ?_
    exact statements_end inBlock _ rest
termination_by tokens.length

theorem operations_end (count : Nat) (left : Expr) (floor : Precedence)
    (tokens : List (Spanned Token)) :
    (operations count left floor tokens).Ensures fun _ rest =>
      ¬ floor < (lead rest).precedence := by
  rw [operations]
  simp only [Kind.goesOn_iff]
  split
  · refine .andThen fun value rest fewer _ => .upTo ?_
    exact operations_end _ value floor rest
  · rename_i weaker
    exact .value weaker
termination_by tokens.length

theorem expression_end (floor : Precedence) (tokens : List (Spanned Token)) :
    (expression floor tokens).Ensures fun _ rest => ¬ floor < (lead rest).precedence := by
  rw [expression]
  exact .andThen fun left rest fewer _ => .upTo (operations_end 0 left floor rest)

theorem arguments_end (before : List Expr) (tokens : List (Spanned Token)) :
    (arguments before tokens).Ensures fun _ rest => lead rest ≠ .comma := by
  rw [arguments]
  split
  · rename_i ends
    exact .value (by rw [ends]; decide)
  · refine .andThen fun name rest fewer _ => ?_
    split
    · refine .andThen fun comma rest fewer _ => .upTo ?_
      exact arguments_end _ rest
    · rename_i other
      exact .value other
termination_by tokens.length

private theorem expects_blockEnd (body : List Stmt) (owner : BlockContext goal)
    (ends : lead tokens = .eof ∨ true ∧ lead tokens = .rbrace) (opened : List Nat) :
    Point.Expects ⟨.statement (.block body owner), opened⟩ tokens .rbrace
      fun _ => ⟨owner.finish body, opened⟩ where
  accepts := by
    rintro token rest rfl closes
    exact .take (State.step?_statement closes rfl) rfl (by rw [closes]; rfl) opened rest
  refuses := by
    intro other
    have final : lead tokens = .eof := ends.resolve_right fun both => other both.2
    refine ⟨⟨fun token first => ?_, by rw [final]; rfl⟩, fun actual _ => ?_⟩
    · cases tokens with
      | nil => contradiction
      | cons head rest =>
        obtain rfl := Option.some.inj first
        exact State.step?_statement final rfl
    · rw [final]
      rfl

private theorem enters_statement (outer : SeqContext goal) (opens : (lead tokens).opensCompound)
    (opened : List Nat) (token : Spanned Token) (rest : List (Spanned Token))
    (state : State goal) (same : tokens = token :: rest)
    (begins : State.openCompound? (.statement outer) token.node.kind = some state) :
    Leads ⟨.statement outer, opened⟩ tokens [] ⟨state, start tokens :: opened⟩ rest := by
  subst same
  have fits := (State.step?_entry (.statement outer) opens token.node.literal).trans begins
  refine .begin_statement fits ?_ opened rest
  intro brace
  rw [lead, brace] at opens
  contradiction

private theorem enters_operand (outer : ExprContext goal) (opens : (lead tokens).opensCompound)
    (opened : List Nat) (token : Spanned Token) (rest : List (Spanned Token))
    (state : State goal) (same : tokens = token :: rest)
    (begins : State.openCompound? (.operand outer) token.node.kind = some state) :
    Leads ⟨.operand outer, opened⟩ tokens [] ⟨state, opened⟩ rest := by
  subst same
  have fits := (State.step?_entry (.operand outer) opens token.node.literal).trans begins
  exact .take fits rfl rfl opened rest

-- A procedure begins where the parser has opened the part that it reads.  What is around
-- that part stands in the context, so the context is left free.
mutual

theorem statements_mirrors (inBlock : Bool) (sequence : List Stmt → SeqContext goal)
    (pushes : ∀ done stmt, (sequence done).push stmt = sequence (done ++ [stmt]))
    (same : ∀ done, (sequence done).isBlock = inBlock) (done : List Stmt)
    (opened : List Nat) (tokens : List (Spanned Token)) :
    (statements inBlock done tokens).Mirrors ⟨.statement (sequence done), opened⟩ tokens
      fun all => ⟨.statement (sequence all), opened⟩ := by
  rw [statements]
  split
  · exact .value (.refl ..)
  · rename_i more
    obtain ⟨noEnd, inside⟩ := not_or.1 more
    have noBrace : (sequence done).isBlock → lead tokens ≠ .rbrace := by
      intro block brace
      exact inside ⟨(same done).symm.trans block, brace⟩
    refine .turn (.andThen (statement_mirrors (sequence done) noEnd noBrace opened)
      fun stmt rest fewer _ => .upTo ?_)
    rw [pushes]
    exact statements_mirrors inBlock sequence pushes same _ opened rest
termination_by (tokens.length, 7)

theorem statement_mirrors (outer : SeqContext goal) {tokens : List (Spanned Token)}
    (noEnd : lead tokens ≠ .eof) (noBrace : outer.isBlock → lead tokens ≠ .rbrace)
    (opened : List Nat) :
    (statement tokens).Mirrors ⟨.statement outer, opened⟩ tokens
      fun stmt => ⟨.statement (outer.push stmt), opened⟩ := by
  rw [statement]
  refine .andThen (form_mirrors outer noEnd noBrace opened) fun (stmt, required) rest _ _ => ?_
  exact .upTo (close_mirrors ..)
termination_by (tokens.length, 6)

theorem form_mirrors (outer : SeqContext goal) {tokens : List (Spanned Token)}
    (noEnd : lead tokens ≠ .eof) (noBrace : outer.isBlock → lead tokens ≠ .rbrace)
    (opened : List Nat) :
    (form tokens).Mirrors ⟨.statement outer, opened⟩ tokens
      fun (stmt, required) => ⟨.statementEnd stmt required outer, start tokens :: opened⟩ := by
  rw [form]
  split
  case h_1 leads =>
    refine .andThen (expect_mirrors (.of_begin leads (fun _ same =>
      State.step?_statement same rfl) (by decide) opened) (by decide)) fun _ rest fewer _ => ?_
    refine .andThen (expect_mirrors ((State.awaits_boundName outer).expects _)
      (by decide)) fun name rest fewer _ => ?_
    refine .andThen (expect_mirrors ((State.awaits_boundSign name.literal outer).expects _)
      (by decide)) fun _ rest fewer _ => ?_
    refine .andThen (expression_mirrors (.boundValue name.literal outer) _ rest)
      fun value rest fewer _ => ?_
    exact .value (.refl ..)
  case h_2 leads => exact jump_mirrors .ret outer leads opened
  case h_3 leads => exact jump_mirrors .brk outer leads opened
  case h_4 leads =>
    refine .andThen (expect_mirrors (.of_begin leads (fun _ same =>
      State.step?_statement same rfl) (by decide) opened) (by decide)) fun _ rest fewer _ => ?_
    exact .value (.refl ..)
  case h_5 leads =>
    refine .andThen (expect_mirrors (.of_begin leads (fun _ same =>
      State.step?_statement same rfl) (by decide) opened) (by decide)) fun _ rest fewer _ => ?_
    split
    · rename_i params
      refine .after (.exchange (params ▸ State.alike_funcStart outer) _) ?_
      refine .andThen (function_mirrors (.literal (.statement outer)) _ rest)
        fun (params, body) rest fewer _ => ?_
      refine .andThen (operations_mirrors (.statement outer) 0 (.func params body) _ rest)
        fun value rest fewer _ => ?_
      exact .value (.refl ..)
    · rename_i noParams
      refine .andThen (expect_mirrors ((State.awaits_funcStart noParams outer).expects _)
        (by decide)) fun name rest fewer _ => ?_
      refine .andThen (function_mirrors (.declaration name.literal outer) _ rest)
        fun (params, body) rest fewer _ => ?_
      exact .value (.refl ..)
  case h_9 =>
    have expression : State.isStatementKind outer (lead tokens) = false := by
      unfold State.isStatementKind
      split <;> simp_all
    refine .after (.begin_expression expression opened) ?_
    refine .andThen (expression_mirrors (.statement outer) _ tokens)
      fun value rest fewer _ => ?_
    exact .value (.refl ..)
  all_goals
    rename_i leads
    refine .andThen (compound_mirrors (.statement outer)
      (enters_statement outer (by rw [leads]; rfl) opened) (by rw [leads]; rfl))
      fun form rest fewer _ => ?_
    exact .value (.refl ..)
termination_by (tokens.length, 5)

theorem jump_mirrors (word : Jump) (outer : SeqContext goal) {tokens : List (Spanned Token)}
    (leads : lead tokens = word.kind) (opened : List Nat) :
    (jump word tokens).Mirrors ⟨.statement outer, opened⟩ tokens
      fun (stmt, required) => ⟨.statementEnd stmt required outer, start tokens :: opened⟩ := by
  have fits : ∀ token : Token, token.kind = word.kind →
      (State.statement outer).step? token = some (.jumpStart word outer) := by
    cases word <;> exact fun _ same => State.step?_statement same rfl
  rw [jump]
  refine .andThen (expect_mirrors (.of_begin leads fits (by cases word <;> decide) opened)
    (by cases word <;> decide)) fun _ rest fewer _ => ?_
  split
  · rename_i semi
    exact .value (.exchange (semi ▸ State.alike_jumpStart_semi word outer) _)
  · rename_i noSemi
    refine .after (.exchange (State.alike_jumpStart noSemi word outer) _) ?_
    refine .andThen (expression_mirrors (.jumpValue word outer) _ rest)
      fun value rest fewer _ => ?_
    exact .value (.refl ..)
termination_by (tokens.length, 0)

theorem function_mirrors (func : FuncContext goal) (opened : List Nat)
    (tokens : List (Spanned Token)) :
    (function tokens).Mirrors ⟨.paramsStart func, opened⟩ tokens
      fun (params, body) => ⟨func.finish params body, opened⟩ := by
  rw [function]
  refine .andThen (params_mirrors func opened tokens) fun params rest fewer _ => ?_
  refine .andThen (block_mirrors (.funcBody params func)
    ((State.awaits_blockStart _).expects opened)) fun body rest fewer _ => ?_
  exact .value (.refl ..)
termination_by (tokens.length, 0)

theorem block_mirrors (owner : BlockContext goal) {entry : Point goal} {opened : List Nat}
    {tokens : List (Spanned Token)}
    (expects : entry.Expects tokens .lbrace fun _ => ⟨.statement (.block [] owner), opened⟩) :
    (block tokens).Mirrors entry tokens fun body => ⟨owner.finish body, opened⟩ := by
  rw [block]
  refine .andThen (expect_mirrors expects (by decide)) fun _ rest fewer _ => ?_
  refine .andThen (statements_mirrors true (fun done => .block done owner)
    (fun _ _ => rfl) (fun _ => rfl) [] opened rest) fun body rest fewer done => ?_
  have ends := statements_end _ _ _ _ _ _ done
  refine .andThen (expect_mirrors (expects_blockEnd body owner ends opened) (by decide))
    fun _ rest fewer _ => ?_
  exact .value (.refl ..)
termination_by (tokens.length, 0)

theorem conditional_mirrors (chain : ChainContext goal) {entry : Point goal}
    {opened : List Nat} {tokens : List (Spanned Token)}
    (expects : entry.Expects tokens .kwIf fun _ => ⟨.operand (.ifCondition chain), opened⟩) :
    (conditional tokens).Mirrors entry tokens
      fun branches => ⟨chain.finish branches, opened⟩ := by
  rw [conditional]
  refine .andThen (expect_mirrors expects (by decide)) fun _ rest fewer _ => ?_
  refine .andThen (expression_mirrors (.ifCondition chain) opened rest)
    fun condition rest fewer _ => ?_
  refine .andThen (block_mirrors (.thenBranch condition chain)
    ((State.awaits_blockStart _).expects opened)) fun body rest fewer _ => ?_
  split
  · rename_i alternative
    have goesOn : ∀ token : Token, token.kind = .kwElse →
        (State.thenEnd condition body chain).step? token =
          some (.elseStart condition body chain) := by
      rintro ⟨kind, literal⟩ rfl
      rfl
    refine .andThen (expect_mirrors (.of_step alternative goesOn rfl rfl opened)
      (by decide)) fun _ rest fewer _ => ?_
    split
    · rename_i further
      have goesOn : ∀ token : Token, token.kind = .kwIf →
          (State.elseStart condition body chain).step? token =
            some (.operand (.ifCondition (.next condition body chain))) := by
        rintro ⟨kind, literal⟩ rfl
        rfl
      refine .andThen (conditional_mirrors (.next condition body chain)
        (.of_step further goesOn rfl rfl opened)) fun next rest fewer _ => ?_
      exact .value (.refl ..)
    · rename_i last
      refine .after (.exchange (State.alike_elseStart last condition body chain) opened) ?_
      refine .andThen (block_mirrors (.elseBranch condition body chain)
        ((State.awaits_blockStart _).expects opened)) fun other rest fewer _ => ?_
      exact .value (.refl ..)
  · rename_i last
    exact .value (.exchange (State.alike_thenEnd last condition body chain) opened)
termination_by (tokens.length, 0)

theorem loop_mirrors (place : Place goal) {entry : Point goal} {opened : List Nat}
    {tokens : List (Spanned Token)}
    (expects : entry.Expects tokens .kwWhile fun _ =>
      ⟨.operand (.loopCondition place), opened⟩) :
    (loop tokens).Mirrors entry tokens
      fun (condition, body) => ⟨place.finish (.loop condition body), opened⟩ := by
  rw [loop]
  refine .andThen (expect_mirrors expects (by decide)) fun _ rest fewer _ => ?_
  refine .andThen (expression_mirrors (.loopCondition place) opened rest)
    fun condition rest fewer _ => ?_
  refine .andThen (block_mirrors (.loopBody condition place)
    ((State.awaits_blockStart _).expects opened)) fun body rest fewer _ => ?_
  exact .value (.refl ..)
termination_by (tokens.length, 0)

theorem compound_mirrors (place : Place goal) {entry : Point goal} {opened : List Nat}
    {tokens : List (Spanned Token)}
    (enters : ∀ token rest state, tokens = token :: rest →
      State.openCompound? place token.node.kind = some state →
        Leads entry tokens [] ⟨state, opened⟩ rest)
    (opens : (lead tokens).opensCompound) :
    (compound tokens).Mirrors entry tokens fun form => ⟨place.finish form, opened⟩ := by
  have expects {kind : Kind} {state : State goal} (leads : lead tokens = kind)
      (begins : State.openCompound? place kind = some state) :
      entry.Expects tokens kind fun _ => ⟨state, opened⟩ :=
    ⟨fun token rest same first => enters token rest state same (first ▸ begins),
      fun other => absurd leads other⟩
  rw [compound]
  split
  · rename_i leads
    refine .andThen (conditional_mirrors (.first place) (expects leads rfl))
      fun branches rest fewer _ => ?_
    exact .value (.refl ..)
  · rename_i leads
    refine .andThen (loop_mirrors place (expects leads rfl))
      fun (condition, body) rest fewer _ => ?_
    exact .value (.refl ..)
  · rename_i noIf noWhile
    have leads : lead tokens = .lbrace := by
      revert opens noIf noWhile
      cases lead tokens <;> simp [Kind.opensCompound]
    refine .andThen (block_mirrors (.plain place) (expects leads rfl))
      fun body rest fewer _ => ?_
    exact .value (.refl ..)
termination_by (tokens.length, 1)

theorem expression_mirrors (outer : ExprContext goal) (opened : List Nat)
    (tokens : List (Spanned Token)) :
    (expression outer.floor tokens).Mirrors ⟨.operand outer, opened⟩ tokens
      fun value => ⟨outer.receive value, opened⟩ := by
  rw [expression]
  refine .andThen (operand_mirrors outer opened tokens) fun left rest fewer _ => ?_
  exact .upTo (operations_mirrors outer 0 left opened rest)
termination_by (tokens.length, 3)

theorem operations_mirrors (outer : ExprContext goal) (count : Nat) (left : Expr)
    (opened : List Nat) (tokens : List (Spanned Token)) :
    (operations count left outer.floor tokens).Mirrors ⟨.value left outer, opened⟩ tokens
      fun value => ⟨outer.receive value, opened⟩ := by
  rw [operations]
  simp only [Kind.goesOn_iff]
  split
  · rename_i stronger
    refine .turn (.andThen (operation_mirrors left opened tokens stronger)
      fun value rest fewer _ => .upTo ?_)
    exact operations_mirrors outer (count + 1) value opened rest
  · rename_i weaker
    exact .value (.exchange (State.alike_receive weaker left) opened)
termination_by (tokens.length, 1)

theorem operand_mirrors (outer : ExprContext goal) (opened : List Nat) :
    ∀ tokens : List (Spanned Token), (operand tokens).Mirrors ⟨.operand outer, opened⟩
      tokens fun value => ⟨.value value outer, opened⟩
  | [] => by
    rw [operand]
    exact .stuck ⟨⟨fun _ first => absurd first (by simp), rfl⟩, fun _ _ => rfl⟩
  | token :: rest => by
    have take {after : State goal} (fits : State.shiftOperand? outer token.node = some after) :
        Leads ⟨.operand outer, opened⟩ (token :: rest) [] ⟨after, opened⟩ rest :=
      State.take_operand fits opened rest
    rw [operand]
    split
    case h_1 leads => exact .value (take (by rw [State.shiftOperand?, leads]))
    case h_2 leads => exact .value (take (by rw [State.shiftOperand?, leads]))
    case h_6 leads =>
      refine .after (take (by rw [State.shiftOperand?, leads])) ?_
      refine .andThen (expression_mirrors (.group outer) opened rest)
        fun inner rest fewer _ => ?_
      refine .andThen (expect_mirrors ((State.awaits_groupEnd inner outer).expects opened)
        (by decide)) fun _ rest fewer _ => ?_
      exact .value (.refl ..)
    case h_7 leads =>
      refine .after (take (by rw [State.shiftOperand?, leads])) ?_
      refine .andThen (function_mirrors (.literal outer) opened rest)
        fun (params, body) rest fewer _ => ?_
      exact .value (.refl ..)
    case h_11 =>
      have misfit : State.shiftOperand? outer token.node = none := by
        unfold State.shiftOperand? State.openCompound?
        split <;> first | contradiction | (split <;> first | contradiction | rfl)
      refine .stuck ⟨⟨fun head first => ?_, rfl⟩, fun _ _ => rfl⟩
      obtain rfl := Option.some.inj first
      exact misfit
    case h_3 leads | h_4 leads | h_5 leads =>
      have fits : State.shiftOperand? outer token.node =
          some (.operand (.unaryOperand token.node.kind outer)) := by
        rw [State.shiftOperand?, leads]
      refine .after (take fits) ?_
      refine .andThen (expression_mirrors (.unaryOperand token.node.kind outer) opened rest)
        fun operand rest fewer _ => ?_
      exact .value (.refl ..)
    all_goals
      rename_i leads
      refine .andThen (compound_mirrors (.operand outer)
        (enters_operand outer (by rw [lead, leads]; rfl) opened) (by rw [lead, leads]; rfl))
        fun form rest fewer _ => ?_
      exact .value (.refl ..)
termination_by tokens => (tokens.length, 2)

theorem operation_mirrors {outer : ExprContext goal} (left : Expr) (opened : List Nat) :
    ∀ tokens : List (Spanned Token), outer.floor < (lead tokens).precedence →
      (operation left tokens).Mirrors ⟨.value left outer, opened⟩ tokens
        fun value => ⟨.value value outer, opened⟩
  | [], stronger => absurd stronger (Precedence.none_le _)
  | token :: rest, stronger => by
    have take {after : State goal}
        (fits : State.shiftValue? left outer token.node.kind = some after) :
        Leads ⟨.value left outer, opened⟩ (token :: rest) [] ⟨after, opened⟩ rest :=
      State.take_value stronger fits opened rest
    rw [operation]
    split
    · rename_i call
      refine .after (take (by rw [State.shiftValue?, if_pos call])) ?_
      refine .andThen (arguments_mirrors left outer [] opened rest)
        fun args rest fewer done => ?_
      have noComma := arguments_end _ _ _ _ _ done
      refine .andThen (expect_mirrors
        ((State.awaits_argumentEnd noComma left args outer).expects opened) (by decide))
        fun _ rest fewer _ => ?_
      exact .value (.refl ..)
    · rename_i noCall
      have operator : token.node.kind.precedence ≠ .none := by
        intro weakest
        rw [lead, weakest] at stronger
        exact Precedence.none_le _ stronger
      have binary := Kind.isBinary_iff.2 ⟨operator, noCall⟩
      rw [if_pos binary]
      refine .after (take (by rw [State.shiftValue?, if_neg noCall, if_pos binary])) ?_
      refine .andThen (expression_mirrors (.rightOperand left token.node.kind outer) opened
        rest) fun right rest fewer _ => ?_
      exact .value (.refl ..)
termination_by tokens => (tokens.length, 0)

theorem arguments_mirrors (callee : Expr) (outer : ExprContext goal) (before : List Expr)
    (opened : List Nat) (tokens : List (Spanned Token)) :
    (arguments before tokens).Mirrors ⟨.argumentStart callee before outer, opened⟩ tokens
      fun args => ⟨.argumentEnd callee args outer, opened⟩ := by
  rw [arguments]
  split
  · rename_i ends
    exact .value (.exchange (ends ▸ State.alike_argumentStart_end callee before outer) opened)
  · rename_i noEnd
    refine .after (.exchange (State.alike_argumentStart noEnd callee before outer) opened) ?_
    refine .turn (.andThen (expression_mirrors (.argument callee before outer) opened tokens)
      fun value rest fewer _ => ?_)
    split
    · rename_i comma
      have goesOn (token : Token) (same : token.kind = .comma) :
          (State.argumentEnd callee (before ++ [value]) outer).step? token =
            some (.argumentStart callee (before ++ [value]) outer) := by
        rw [State.step?, same]
        exact if_pos same
      refine .andThen (expect_mirrors (.of_step comma goesOn rfl rfl opened) (by decide))
        fun _ rest fewer _ => .upTo ?_
      exact arguments_mirrors callee outer _ opened rest
    · exact .value (.refl ..)
termination_by (tokens.length, 4)

end

end Descent

end OasisSyntax
