import OasisSyntax.Proofs.Descent.Events
import OasisSyntax.Proofs.Parsing.Sound

/-!
# Trees of the procedures

Every procedure that succeeds has read a canonical tree, and its events are those of the
statements inside of the tree, in post-order.  The proofs follow the procedures, and go
by induction on the same measure.
-/

namespace OasisSyntax

open Descent Outcome
open Concrete (parenthesised braced optionalToken namesYield)

variable {within skip : Nat} {β : Type} {floor : Precedence}
  {tokens between rest : List (Spanned Token)} {events : List StatementEvent}

/-- The tokens in front of the rest spell a canonical tree, in which the events are those
of the nested statements. -/
structure Shown (canonical : Prop) (yield : List Token)
    (nested : List (Spanned Token) → List StatementEvent)
    (tokens rest : List (Spanned Token)) (events : List StatementEvent) : Prop where
  canonical : canonical
  spells : Spells yield tokens rest
  nested : nested tokens = events

/-- The tree is stronger than the floor, and does not go on with the next token. -/
structure Concrete.Expr.Reads (floor : Precedence) (tree : Concrete.Expr)
    (tokens rest : List (Spanned Token)) (events : List StatementEvent) : Prop
    extends Shown tree.Canonical tree.yield tree.nested tokens rest events where
  stronger : floor < tree.level
  ends : ¬ tree.floor < (Descent.lead rest).precedence

def Formed (stmt : Stmt) (required : Bool) (tokens rest : List (Spanned Token))
    (events : List StatementEvent) : Prop :=
  ∃ part, Spells part tokens rest ∧ ∀ terminated : Bool, (required → terminated) →
    ∃ tree : Concrete.Stmt, tree.erase = stmt ∧ tree.Canonical ∧
      tree.yield = part ++ optionalToken .semi terminated ∧ tree.nested tokens = events

theorem Formed.terminated (tree : Concrete.Stmt) {part : List Token}
    (spells : Spells part tokens rest) (canonical : tree.Canonical)
    (yields : tree.yield = part ++ [.ofKind .semi]) (nested : tree.nested tokens = events) :
    Formed tree.erase true tokens rest events := by
  refine ⟨part, spells, fun terminated needed => ?_⟩
  obtain rfl := needed rfl
  exact ⟨tree, rfl, canonical, yields, nested⟩

theorem Concrete.Expr.Reads.formed {tree : Concrete.Expr}
    (reads : tree.Reads floor tokens rest events)
    (plain : ¬ (Descent.lead tokens).opensCompound) :
    Formed (.expr tree.erase) true tokens rest events := by
  refine .terminated (.expr tree) reads.spells ⟨?_, reads.canonical⟩ rfl reads.nested
  obtain ⟨literal, tail, begins⟩ := tree.yield_eq
  obtain ⟨first, more, rfl, same⟩ := (begins ▸ reads.spells).exists_cons
  rw [tree.startsCompound_eq reads.canonical]
  rwa [Descent.lead, ← first.node.plain_kind, same] at plain

def ShownBlock (trees : List Concrete.Stmt) (tokens rest : List (Spanned Token))
    (events : List StatementEvent) : Prop :=
  Shown (Concrete.Stmt.AllCanonical trees) (braced (Concrete.Stmt.allYield trees))
    (fun tokens => Concrete.Stmt.postOrder trees (behind [.ofKind .lbrace] tokens))
    tokens rest events

def ShownFunction (params : List String) (trailing : Bool) (trees : List Concrete.Stmt)
    (tokens rest : List (Spanned Token)) (events : List StatementEvent) : Prop :=
  Shown ((trailing → params ≠ []) ∧ Concrete.Stmt.AllCanonical trees)
    (parenthesised (namesYield trailing params) ++ braced (Concrete.Stmt.allYield trees))
    (fun tokens => Concrete.Stmt.postOrder trees
      (behind (parenthesised (namesYield trailing params) ++ [.ofKind .lbrace]) tokens))
    tokens rest events

def ShownGuarded (word : Kind) (condition : Concrete.Expr) (trees : List Concrete.Stmt)
    (tokens rest : List (Spanned Token)) (events : List StatementEvent) : Prop :=
  Shown (condition.Canonical ∧ Concrete.Stmt.AllCanonical trees)
    (.ofKind word :: condition.yield ++ braced (Concrete.Stmt.allYield trees))
    (fun tokens => condition.nested (behind [.ofKind word] tokens) ++
      Concrete.Stmt.postOrder trees
        (behind (.ofKind word :: condition.yield ++ [.ofKind .lbrace]) tokens))
    tokens rest events

theorem ShownGuarded.of_block {word : Kind} {condition : Concrete.Expr}
    {trees : List Concrete.Stmt} {start : List (Spanned Token)}
    {later : List StatementEvent} (leads : Spells [.ofKind word] tokens start)
    (guards : Shown condition.Canonical condition.yield condition.nested start between events)
    (shown : ShownBlock trees between rest later) :
    ShownGuarded word condition trees tokens rest (events ++ later) := by
  have front : Spells (.ofKind word :: condition.yield) tokens between :=
    leads.append guards.spells
  refine ⟨⟨guards.canonical, shown.canonical⟩, front.append shown.spells, ?_⟩
  rw [leads.behind_eq, front.behind_append, guards.nested]
  exact congrArg (events ++ ·) shown.nested

theorem Concrete.Expr.Reads.func {params : List String} {trailing : Bool}
    {trees : List Concrete.Stmt} (word : Spells [.ofKind .kwFunc] tokens between)
    (shown : ShownFunction params trailing trees between rest events) (weak : floor < .call) :
    (Concrete.Expr.func params trailing trees).Reads floor tokens rest events := by
  refine ⟨⟨shown.canonical, (word.append shown.spells).of_eq (by simp [yield]), ?_⟩, weak,
    Precedence.le_call _⟩
  rw [← shown.nested, ← word.behind_append]
  rfl

namespace Concrete

private theorem exists_namesYield_cons (name : String) (more : List String) (trailing : Bool) :
    ∃ trailing', namesYield trailing' (name :: more) =
      ⟨.ident, name⟩ :: .ofKind .comma :: namesYield trailing more := by
  cases more with
  | nil => exact ⟨true, rfl⟩
  | cons following more => exact ⟨trailing, rfl⟩

private theorem Expr.exists_argsYield_cons (value : Expr) (more : List Expr) (trailing : Bool) :
    ∃ trailing', argsYield trailing' (value :: more) =
      value.yield ++ .ofKind .comma :: argsYield trailing more := by
  cases more with
  | nil => exact ⟨true, rfl⟩
  | cons following more => exact ⟨trailing, rfl⟩

end Concrete

namespace Descent

/-! ## Single tokens -/

variable {shown : β → List (Spanned Token) → List StatementEvent → Prop}
  {next : Token → (rest : List (Spanned Token)) → rest.length < tokens.length →
    Outcome within β}

theorem expect_shows (kind : Kind) (tokens : List (Spanned Token)) :
    (expect kind tokens).Shows skip tokens fun token rest events =>
      token.kind = kind ∧ Spells [token.plain] tokens rest ∧ events = [] := by
  cases tokens with
  | nil => exact .stuck
  | cons token rest =>
    rw [expect]
    split
    · rename_i same
      exact .token ⟨same, .token token rest, rfl⟩
    · exact .stuck

theorem expect_mark {kind : Kind} (noName : kind ≠ .ident) (noInt : kind ≠ .int)
    (second : ∀ token rest fewer, Spells [.ofKind kind] tokens rest →
      (next token rest fewer).Shows skip rest shown) :
    ((expect kind tokens).andThen next).Shows skip tokens shown := by
  refine (expect_shows kind tokens).andThen ?_
  rintro token rest fewer _ ⟨same, spells, rfl⟩
  exact second token rest fewer (Token.plain_of_kind same noName noInt ▸ spells)

theorem expect_name
    (second : ∀ token rest fewer, Spells [⟨.ident, token.literal⟩] tokens rest →
      (next token rest fewer).Shows skip rest shown) :
    ((expect .ident tokens).andThen next).Shows skip tokens shown := by
  refine (expect_shows .ident tokens).andThen ?_
  rintro token rest fewer _ ⟨same, spells, rfl⟩
  exact second token rest fewer (Token.plain_of_ident same ▸ spells)

private theorem close_cases (start : Nat) (stmt : Stmt) (required : Bool)
    (tokens : List (Spanned Token)) :
    close start stmt required tokens = .stuck (.missing .semi) tokens ∨
      ∃ rest fewer, ∃ terminated : Bool,
        close start stmt required tokens = ⟨.done stmt rest fewer, [⟨start, stmt⟩], 0⟩ ∧
          (required → terminated) ∧ Spells (optionalToken .semi terminated) tokens rest := by
  rw [close]
  split
  · rename_i semi
    obtain ⟨token, rest, rfl, same⟩ := exists_of_lead semi (by decide)
    exact .inr ⟨rest, by rw [List.length_cons]; omega, true, rfl, fun _ => rfl,
      .mark same (by decide) (by decide) rest⟩
  · split
    · exact .inl rfl
    · rename_i free
      exact .inr ⟨tokens, Nat.lt_succ_self _, false, rfl, fun needed => absurd needed free,
        .refl tokens⟩

/-! ## Parameters -/

theorem names_shows (before : List String) (tokens : List (Spanned Token)) :
    (names before tokens).Shows skip tokens fun params rest events =>
      ∃ more trailing, params = before ++ more ∧ (trailing = true → more ≠ []) ∧
        Spells (namesYield trailing more) tokens rest ∧ events = [] := by
  rw [names]
  split
  · exact .value ⟨[], false, (List.append_nil before).symm, by simp, .refl tokens, rfl⟩
  · refine .turn (expect_name fun name rest fewer spelled => ?_)
    split
    · refine expect_mark (by decide) (by decide) fun _ rest fewer comma =>
        .upTo (.imp (names_shows _ rest) ?_)
      rintro params rest events ⟨more, trailing, rfl, -, spells, rfl⟩
      obtain ⟨trailing', yields⟩ :=
        Concrete.exists_namesYield_cons name.literal more trailing
      exact ⟨name.literal :: more, trailing', by simp, by simp,
        yields ▸ spelled.append (comma.append spells), rfl⟩
    · exact .value ⟨[name.literal], false, rfl, by simp, spelled, rfl⟩
termination_by tokens.length

private theorem params_shows (tokens : List (Spanned Token)) :
    (params tokens).Shows skip tokens fun params rest events =>
      ∃ trailing, (trailing = true → params ≠ []) ∧
        Spells (parenthesised (namesYield trailing params)) tokens rest ∧ events = [] := by
  rw [params]
  refine expect_mark (by decide) (by decide) fun _ rest fewer opens => ?_
  refine .andThen (names_shows [] rest) ?_
  rintro _ rest fewer _ ⟨params, trailing, rfl, some, spells, rfl⟩
  refine expect_mark (by decide) (by decide) fun _ rest fewer closes => .value ?_
  exact ⟨trailing, some, (opens.append spells).append closes, rfl⟩

/-! ## Statements -/

private theorem statement_of_form
    (formed : (form tokens).Shows 1 tokens fun (stmt, required) rest events =>
      Formed stmt required tokens rest events) :
    (statement tokens).Shows 0 tokens fun stmt rest events =>
      ∃ tree : Concrete.Stmt, tree.erase = stmt ∧
        Shown tree.Canonical tree.yield
          (fun tokens => tree.nested tokens ++ [⟨start tokens, tree.erase⟩])
          tokens rest events := by
  rw [statement]
  obtain ⟨logged, done⟩ := formed
  generalize form tokens = outcome at logged done ⊢
  obtain ⟨ending, events, turns⟩ := outcome
  have kept : tokens.drop 1 <:+ tokens.drop 0 := List.drop_suffix 1 tokens
  cases ending with
  | stuck complaint rest => exact .of_stuck (logged.widen List.suffix_rfl kept List.suffix_rfl)
  | done value between fewer =>
    obtain ⟨stmt, required⟩ := value
    obtain ⟨part, spells, trees⟩ := done _ _ _ rfl
    simp only [Outcome.andThen, Outcome.upTo]
    rcases close_cases (start tokens) stmt required between with
      same | ⟨rest, fewer', terminated, same, needed, ends⟩
    · simp only [same, Outcome.stuck, List.append_nil]
      exact .of_stuck (logged.widen List.suffix_rfl kept List.suffix_rfl)
    · obtain ⟨tree, rfl, canonical, yields, nested⟩ := trees terminated needed
      simp only [same]
      have spelled : Spells tree.yield tokens rest := yields ▸ spells.append ends
      refine ⟨logged.end_statement canonical spelled nested ends.isSuffix, ?_⟩
      intro value rest fewer'' done
      cases done
      exact ⟨tree, rfl, canonical, spelled, by rw [nested]; rfl⟩

mutual

-- The induction is that of the procedures.  What a loop has read before its turn is not
-- part of what it shows: the trees of the later turns are put behind those of the first.
theorem statements_shows (inBlock : Bool) (done : List Stmt)
    (tokens : List (Spanned Token)) :
    (statements inBlock done tokens).Shows 0 tokens fun stmts rest events =>
      ∃ trees, stmts = done ++ Concrete.Stmt.eraseAll trees ∧
        Shown (Concrete.Stmt.AllCanonical trees) (Concrete.Stmt.allYield trees)
          (Concrete.Stmt.postOrder trees) tokens rest events := by
  rw [statements]
  split
  · exact .value ⟨[], (List.append_nil done).symm, trivial, .refl tokens, rfl⟩
  · refine .turn (.andThen (statement_of_form (form_shows tokens)) ?_)
    rintro stmt rest fewer events ⟨tree, rfl, canonical, spells, rfl⟩
    refine .upTo (.imp (statements_shows inBlock _ rest) ?_)
    rintro stmts rest events ⟨trees, rfl, canonicals, spells', rfl⟩
    refine ⟨tree :: trees, List.append_assoc .., ⟨canonical, canonicals⟩,
      spells.append spells', ?_⟩
    rw [Concrete.Stmt.postOrder, spells.behind_eq, List.append_assoc]
    rfl
termination_by (tokens.length, 6)

theorem form_shows (tokens : List (Spanned Token)) :
    (form tokens).Shows 1 tokens fun (stmt, required) rest events =>
      Formed stmt required tokens rest events := by
  rw [form]
  split
  case h_1 =>
    refine expect_mark (by decide) (by decide) fun _ rest fewer word => ?_
    refine expect_name fun name rest fewer named => ?_
    refine expect_mark (by decide) (by decide) fun _ rest fewer sign => ?_
    have front := word.append (named.append sign)
    refine .map (expression_shows .none (by decide) rest) ?_
    rintro _ rest events ⟨tree, rfl, reads, -⟩
    refine .terminated (.binding name.literal tree) (front.append reads.spells)
      reads.canonical rfl ?_
    rw [← reads.nested, Concrete.Stmt.nested, ← front.behind_eq]
    rfl
  case h_2 => exact jump_shows .ret tokens
  case h_3 => exact jump_shows .brk tokens
  case h_4 =>
    refine expect_mark (by decide) (by decide) fun _ rest fewer word => .value ?_
    exact .terminated .continueLoop word trivial rfl rfl
  case h_5 leads =>
    refine expect_mark (by decide) (by decide) fun _ rest fewer word => ?_
    split
    · refine .andThen (function_shows rest) ?_
      rintro ⟨params, _⟩ rest fewer events ⟨trailing, trees, rfl, shown⟩
      have reads := Concrete.Expr.Reads.func word shown (by decide : Precedence.none < .call)
      refine .map (operations_shows 0 reads) ?_
      rintro _ rest more ⟨tree, rfl, reads, -⟩
      exact reads.formed (by rw [leads]; decide)
    · refine expect_name fun name rest fewer named => ?_
      have front := word.append named
      refine .andThen (function_shows rest) ?_
      rintro ⟨params, _⟩ rest fewer _ ⟨trailing, trees, rfl, shown⟩
      refine .value ⟨_, front.append shown.spells, fun terminated _ => ?_⟩
      refine ⟨.funcDecl name.literal params trailing trees terminated, rfl,
        shown.canonical, ?_, ?_⟩
      · simp [Concrete.Stmt.yield]
      · rw [List.append_nil, ← shown.nested, ← front.behind_append]
        rfl
  case h_9 noLet noRet noBrk noContinue noFunc noBrace noIf noWhile =>
    refine .map (expression_shows .none (by decide) tokens) ?_
    rintro _ rest events ⟨tree, rfl, reads, -⟩
    refine reads.formed ?_
    revert noBrace noIf noWhile
    cases lead tokens <;> simp [Kind.opensCompound]
  all_goals
    rename_i leads
    refine .map (compound_shows tokens) ?_
    rintro _ rest events ⟨tree, rfl, shown⟩
    refine ⟨tree.yield, shown.spells, fun terminated _ => ?_⟩
    exact ⟨.compound tree terminated, rfl, shown.canonical, rfl, shown.nested⟩
termination_by (tokens.length, 5)

theorem jump_shows (word : Jump) (tokens : List (Spanned Token)) :
    (jump word tokens).Shows 1 tokens fun (stmt, required) rest events =>
      Formed stmt required tokens rest events := by
  rw [jump]
  refine expect_mark (by cases word <;> decide) (by cases word <;> decide)
    fun _ rest fewer leads => ?_
  split
  · exact .value (.terminated (.jump word none) leads trivial rfl rfl)
  · refine .map (expression_shows .none (by decide) rest) ?_
    rintro _ rest events ⟨tree, rfl, reads, -⟩
    refine .terminated (.jump word (some tree)) (leads.append reads.spells)
      reads.canonical rfl ?_
    rw [← reads.nested, Concrete.Stmt.nested, ← leads.behind_eq]
termination_by (tokens.length, 0)

theorem function_shows (tokens : List (Spanned Token)) :
    (function tokens).Shows 1 tokens fun (params, body) rest events =>
      ∃ trailing trees, Concrete.Stmt.eraseAll trees = body ∧
        ShownFunction params trailing trees tokens rest events := by
  rw [function]
  refine .andThen (params_shows tokens) ?_
  rintro params rest fewer _ ⟨trailing, some, spells, rfl⟩
  refine .map (block_shows rest) ?_
  rintro _ rest events ⟨trees, rfl, shown⟩
  refine ⟨trailing, trees, rfl, ⟨some, shown.canonical⟩, spells.append shown.spells, ?_⟩
  rw [spells.behind_append, shown.nested]
  rfl
termination_by (tokens.length, 0)

theorem block_shows (tokens : List (Spanned Token)) :
    (block tokens).Shows 1 tokens fun body rest events =>
      ∃ trees, Concrete.Stmt.eraseAll trees = body ∧
        ShownBlock trees tokens rest events := by
  rw [block]
  -- The first statement may begin right behind the brace, so the brace has to be counted.
  refine .inside (expect_shows .lbrace tokens) ?_
  rintro brace rest fewer _ ⟨same, spelled, rfl⟩
  have opens : Spells [.ofKind .lbrace] tokens rest :=
    Token.plain_of_kind same (by decide) (by decide) ▸ spelled
  refine .andThen (statements_shows true [] rest) ?_
  rintro _ rest fewer _ ⟨trees, rfl, canonical, spells, rfl⟩
  refine expect_mark (by decide) (by decide) fun _ rest fewer closes => .value ?_
  refine ⟨trees, rfl, canonical, (opens.append spells).append closes, ?_⟩
  rw [opens.behind_eq, List.append_nil]
  rfl
termination_by (tokens.length, 0)

theorem conditional_shows (tokens : List (Spanned Token)) :
    (conditional tokens).Shows 1 tokens fun branches rest events =>
      ∃ tree : Concrete.Conditional, tree.erase = branches ∧
        Shown tree.Canonical tree.yield tree.nested tokens rest events := by
  rw [conditional]
  refine expect_mark (by decide) (by decide) fun _ rest fewer leads => ?_
  refine .andThen (expression_shows .none (by decide) rest) ?_
  rintro _ rest fewer events ⟨condition, rfl, reads, -⟩
  refine .andThen (block_shows rest) ?_
  rintro _ rest fewer later ⟨body, rfl, shown⟩
  have guarded := ShownGuarded.of_block leads reads.toShown shown
  split
  · refine expect_mark (by decide) (by decide) fun _ rest fewer word => ?_
    split
    · refine .map (conditional_shows rest) ?_
      rintro _ rest last ⟨next, rfl, shown'⟩
      refine ⟨.elseIf condition body next, rfl,
        ⟨guarded.canonical.1, guarded.canonical.2, shown'.canonical⟩,
        guarded.spells.append (word.append shown'.spells), ?_⟩
      rw [Concrete.Conditional.nested, guarded.spells.behind_append, word.behind_eq,
        shown'.nested, ← List.append_assoc]
      exact congrArg (· ++ last) guarded.nested
    · refine .map (block_shows rest) ?_
      rintro _ rest last ⟨other, rfl, shown'⟩
      refine ⟨.orElse condition body other, rfl,
        ⟨guarded.canonical.1, guarded.canonical.2, shown'.canonical⟩,
        guarded.spells.append (word.append shown'.spells), ?_⟩
      have place := (guarded.spells.behind_append _).trans
        (word.behind_append [.ofKind .lbrace])
      rw [Concrete.Conditional.nested, ← List.append_assoc]
      exact congrArg₂ (· ++ ·) guarded.nested ((congrArg _ place).trans shown'.nested)
  · refine .value ⟨.only condition body, rfl, ?_⟩
    rw [List.append_nil]
    exact guarded
termination_by (tokens.length, 0)

theorem loop_shows (tokens : List (Spanned Token)) :
    (loop tokens).Shows 1 tokens fun (condition, body) rest events =>
      ∃ (tree : Concrete.Expr) (trees : List Concrete.Stmt), tree.erase = condition ∧
        Concrete.Stmt.eraseAll trees = body ∧
        ShownGuarded .kwWhile tree trees tokens rest events := by
  rw [loop]
  refine expect_mark (by decide) (by decide) fun _ rest fewer leads => ?_
  refine .andThen (expression_shows .none (by decide) rest) ?_
  rintro _ rest fewer events ⟨condition, rfl, reads, -⟩
  refine .map (block_shows rest) ?_
  rintro _ rest later ⟨body, rfl, shown⟩
  exact ⟨condition, body, rfl, rfl, .of_block leads reads.toShown shown⟩
termination_by (tokens.length, 0)

theorem compound_shows (tokens : List (Spanned Token)) :
    (compound tokens).Shows 1 tokens fun form rest events =>
      ∃ tree : Concrete.Compound, tree.erase = form ∧
        Shown tree.Canonical tree.yield tree.nested tokens rest events := by
  rw [compound]
  split
  · refine .map (conditional_shows tokens) ?_
    rintro _ rest events ⟨branches, rfl, shown⟩
    exact ⟨.conditional branches, rfl, shown⟩
  · refine .andThen (loop_shows tokens) ?_
    rintro ⟨_, _⟩ rest fewer events ⟨condition, body, rfl, rfl, shown⟩
    refine .value ⟨.loop condition body, rfl, ?_⟩
    rw [List.append_nil]
    exact shown
  · refine .map (block_shows tokens) ?_
    rintro _ rest events ⟨body, rfl, shown⟩
    exact ⟨.block body, rfl, shown⟩
termination_by (tokens.length, 1)

theorem expression_shows (floor : Precedence) (weak : floor < .call)
    (tokens : List (Spanned Token)) :
    (expression floor tokens).Shows 1 tokens fun value rest events =>
      ∃ tree : Concrete.Expr, tree.erase = value ∧ tree.Reads floor tokens rest events ∧
        ¬ floor < (lead rest).precedence := by
  rw [expression]
  refine .andThen (operand_shows floor weak tokens) ?_
  rintro _ rest fewer events ⟨tree, rfl, reads⟩
  exact .upTo (operations_shows 0 reads)
termination_by (tokens.length, 3)

-- The left operand has been read before, so this shows a tree from where that begins.
theorem operations_shows {floor : Precedence} (count : Nat) {tree : Concrete.Expr}
    {begin tokens : List (Spanned Token)} {events : List StatementEvent}
    (reads : tree.Reads floor begin tokens events) :
    (operations count tree.erase floor tokens).Shows 1 tokens fun value rest later =>
      ∃ tree : Concrete.Expr, tree.erase = value ∧
        tree.Reads floor begin rest (events ++ later) ∧
        ¬ floor < (lead rest).precedence := by
  rw [operations]
  simp only [Kind.goesOn_iff]
  split
  · rename_i stronger
    refine .turn (.andThen (operation_shows reads stronger) ?_)
    rintro _ rest fewer later ⟨tree, rfl, reads⟩
    refine .upTo ((operations_shows (count + 1) reads).imp ?_)
    rintro value rest last ⟨tree, rfl, reads, weaker⟩
    exact ⟨tree, rfl, List.append_assoc events later last ▸ reads, weaker⟩
  · rename_i weaker
    exact .value ⟨tree, rfl, (List.append_nil events).symm ▸ reads, weaker⟩
termination_by (tokens.length, 1)

theorem operand_shows (floor : Precedence) (weak : floor < .call) :
    ∀ tokens : List (Spanned Token),
      (operand tokens).Shows 1 tokens fun value rest events =>
        ∃ tree : Concrete.Expr, tree.erase = value ∧ tree.Reads floor tokens rest events
  | [] => by
    rw [operand]
    exact .stuck
  | token :: rest => by
    have ends (next : Kind) : ¬ Precedence.call < next.precedence := Precedence.le_call _
    rw [operand]
    split
    case h_1 same =>
      have spells : Spells [⟨.ident, token.node.literal⟩] (token :: rest) rest :=
        Token.plain_of_ident same ▸ .token token rest
      exact .token ⟨.ident token.node.literal, rfl, ⟨trivial, spells, rfl⟩, weak, ends _⟩
    case h_2 same =>
      have spells : Spells [⟨.int, token.node.literal⟩] (token :: rest) rest :=
        Token.plain_of_int same ▸ .token token rest
      exact .token ⟨.int token.node.literal, rfl, ⟨trivial, spells, rfl⟩, weak, ends _⟩
    case h_6 same =>
      have opens := Spells.mark same (by decide) (by decide) rest
      refine .behind token (.andThen (expression_shows .none (by decide) rest) ?_)
      rintro _ between fewer events ⟨tree, rfl, reads, -⟩
      refine expect_mark (by decide) (by decide) fun _ rest fewer closes => .value ?_
      refine ⟨.group tree, rfl, ⟨reads.canonical,
        (opens.append reads.spells).append closes, ?_⟩, weak, ends _⟩
      rw [Concrete.Expr.nested, opens.behind_eq, reads.nested, List.append_nil]
    case h_7 same =>
      have word := Spells.mark same (by decide) (by decide) rest
      refine .behind token (.andThen (function_shows rest) ?_)
      rintro ⟨params, _⟩ between fewer events ⟨trailing, trees, rfl, shown⟩
      refine .value ⟨.func params trailing trees, rfl, ?_⟩
      rw [List.append_nil]
      exact .func word shown weak
    case h_11 => exact .stuck
    case h_3 same | h_4 same | h_5 same =>
      have word : Spells [.ofKind token.node.kind] (token :: rest) rest :=
        .mark rfl (by rw [same]; decide) (by rw [same]; decide) rest
      refine .behind token (.map (expression_shows .unary (by decide) rest) ?_)
      rintro _ between events ⟨tree, rfl, reads, weaker⟩
      refine ⟨.unary token.node.kind tree, rfl, ⟨⟨by rw [same]; rfl,
        tree.not_isBinary_of_level reads.stronger reads.canonical, reads.canonical⟩,
        word.append reads.spells, ?_⟩, weak, weaker⟩
      rw [Concrete.Expr.nested, word.behind_eq, reads.nested]
    all_goals
      refine .map (compound_shows (token :: rest)) ?_
      rintro _ rest events ⟨tree, rfl, shown⟩
      exact ⟨.compound tree, rfl, shown, weak, ends _⟩
termination_by tokens => (tokens.length, 2)

theorem operation_shows {floor : Precedence} {tree : Concrete.Expr}
    {begin : List (Spanned Token)} {events : List StatementEvent} :
    ∀ {tokens : List (Spanned Token)}, tree.Reads floor begin tokens events →
      floor < (lead tokens).precedence →
      (operation tree.erase tokens).Shows 1 tokens fun value rest later =>
        ∃ tree : Concrete.Expr, tree.erase = value ∧
          tree.Reads floor begin rest (events ++ later)
  | [], _, _ => by
    rw [operation]
    exact .stuck
  | token :: rest, reads, stronger => by
    rw [operation]
    split
    · rename_i call
      have callee := reads.spells.append (.mark call (by decide) (by decide) rest)
      refine .behind token (.andThen (arguments_shows [] rest) ?_)
      rintro _ between fewer later ⟨args, trailing, rfl, some, canonical, spells, rfl⟩
      refine expect_mark (by decide) (by decide) fun _ rest fewer closes => .value ?_
      have primary : ¬ tree.isOperation := by
        refine State.not_isOperation_of_floor reads.canonical ?_
        have ends := reads.ends
        rwa [lead, call] at ends
      refine ⟨.call tree args trailing, rfl,
        ⟨⟨primary, some, reads.canonical, canonical⟩, ?_, ?_⟩, ?_, Precedence.le_call _⟩
      · exact ((callee.append spells).append closes).of_eq
          (by simp [Concrete.Expr.yield, parenthesised])
      · rw [Concrete.Expr.nested, callee.behind_eq, reads.nested, List.append_nil]
      · rwa [lead, call] at stronger
    · split
      · rename_i noCall binary
        have operator : Spells [.ofKind token.node.kind] (token :: rest) rest := by
          refine .mark rfl (fun name => ?_) (fun int => ?_) rest
          · exact absurd binary (by rw [name]; decide)
          · exact absurd binary (by rw [int]; decide)
        have front := reads.spells.append operator
        refine .behind token (.map
          (expression_shows _ (Kind.rightFloor_lt_call binary) rest) ?_)
        rintro _ rest later ⟨right, rfl, reads', weaker⟩
        refine ⟨.binary tree token.node.kind right, rfl, ⟨⟨binary,
          State.fitsLeftOf_of_floor binary reads.ends,
          right.fitsRightOf_of_level reads'.stronger reads'.canonical,
          reads.canonical, reads'.canonical⟩, ?_, ?_⟩, stronger, weaker⟩
        · exact (front.append reads'.spells).of_eq (by simp [Concrete.Expr.yield])
        · rw [Concrete.Expr.nested, front.behind_eq, reads.nested, reads'.nested]
      · exact .stuck
termination_by tokens => (tokens.length, 0)

theorem arguments_shows (before : List Expr) (tokens : List (Spanned Token)) :
    (arguments before tokens).Shows 1 tokens fun args rest events =>
      ∃ (trees : List Concrete.Expr) (trailing : Bool),
        args = before ++ Concrete.Expr.eraseAll trees ∧ (trailing → trees ≠ []) ∧
        Shown (Concrete.Expr.AllCanonical trees) (Concrete.Expr.argsYield trailing trees)
          (Concrete.Expr.nestedAll trees) tokens rest events := by
  rw [arguments]
  split
  · exact .value ⟨[], false, (List.append_nil before).symm, by simp, trivial, .refl tokens,
      rfl⟩
  · refine .turn (.andThen (expression_shows .none (by decide) tokens) ?_)
    rintro _ rest fewer _ ⟨tree, rfl, reads, -⟩
    split
    · refine expect_mark (by decide) (by decide) fun _ rest fewer comma =>
        .upTo (.imp (arguments_shows _ rest) ?_)
      rintro args rest events ⟨trees, trailing, rfl, -, shown⟩
      obtain ⟨trailing', yields⟩ := tree.exists_argsYield_cons trees trailing
      have front := reads.spells.append comma
      refine ⟨tree :: trees, trailing', List.append_assoc .., by simp,
        ⟨reads.canonical, shown.canonical⟩, ?_, ?_⟩
      · exact (front.append shown.spells).of_eq (by simp [yields])
      · rw [Concrete.Expr.nestedAll, front.behind_eq, reads.nested, shown.nested]
    · refine .value ⟨[tree], false, rfl, by simp, ⟨reads.canonical, trivial⟩, ?_, ?_⟩
      · exact reads.spells.of_eq (List.append_nil _).symm
      · rw [List.append_nil, ← reads.nested]
        exact List.append_nil _
termination_by (tokens.length, 4)

end

end Descent

end OasisSyntax
