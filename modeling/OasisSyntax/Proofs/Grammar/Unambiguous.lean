import OasisSyntax.Proofs.Grammar.Correspondence

/-!
# The grammar is unambiguous

The tokens of a derivation determine it.  This is proved with more tokens behind those
of the derivation: where both stop is determined too, provided that the next token is
none with which the derivation could go on.  Each rule is told from the others by its
first token, except that the second one tells a function from its declaration.
-/

namespace OasisSyntax

namespace Kind

def endsPrimary (kind : Kind) : Bool := kind ≠ kwElse

def endsUnary (kind : Kind) : Bool := kind.endsPrimary && kind ≠ lparen

def endsExpr (kind : Kind) : Bool := kind.endsUnary && !kind.isBinary

def endsStmt (kind : Kind) : Bool := kind ≠ kwElse && kind ≠ semi

end Kind

namespace Derivation

open Concrete (optionalToken parenthesised braced)

def Begins (kinds : Kind → Bool) (tokens : List Token) : Prop :=
  ∀ token ∈ tokens.head?, kinds token.kind

theorem begins_cons {kinds : Kind → Bool} {token : Token} {rest : List Token}
    (fits : kinds token.kind) : Begins kinds (token :: rest) := by
  rintro other ⟨⟩
  exact fits

theorem Begins.head {kinds : Kind → Bool} {token : Token} {rest : List Token}
    (begins : Begins kinds (token :: rest)) : kinds token.kind := begins token rfl

theorem not_begins_cons {kinds : Kind → Bool} {token : Token} {rest : List Token}
    (apart : ¬ kinds token.kind) : ¬ Begins kinds (token :: rest) :=
  fun begins => apart begins.head

theorem Begins.mono {kinds kinds' : Kind → Bool} {tokens : List Token}
    (begins : Begins kinds tokens)
    (weaker : ∀ kind ∈ Kind.all, kinds kind → kinds' kind) :
    Begins kinds' tokens :=
  fun token head => weaker _ (Kind.mem_all _) (begins token head)

/-- No other legal derivation has the same tokens in front of tokens that end it. -/
def Determined {α : Type} (yield : α → List Token) (Legal : α → Prop)
    (ends : Kind → Bool) (first : α) : Prop :=
  ∀ ⦃second : α⦄ ⦃rest rest' : List Token⦄, Legal second →
    yield first ++ rest = yield second ++ rest' → Begins ends rest → Begins ends rest' →
      first = second ∧ rest = rest'

theorem Determined.mono {α : Type} {yield : α → List Token} {Legal : α → Prop}
    {ends ends' : Kind → Bool} {first : α}
    (determined : Determined yield Legal ends first)
    (stronger : ∀ kind ∈ Kind.all, ends' kind → ends kind) :
    Determined yield Legal ends' first := by
  intro second rest rest' legal same begins begins'
  exact determined legal same (begins.mono stronger) (begins'.mono stronger)

section Brackets

variable {α : Type} {yield : α → List Token} {Legal : α → Prop} {first second : α}
  {rest rest' : List Token}

theorem Determined.parenthesised
    (determined : Determined yield Legal (fun kind => kind = .rparen) first)
    (legal : Legal second)
    (same : Concrete.parenthesised (yield first) ++ rest =
      Concrete.parenthesised (yield second) ++ rest') :
    first = second ∧ rest = rest' := by
  simp only [Concrete.parenthesised, List.append_assoc, List.cons_append,
    List.nil_append, List.cons.injEq, true_and] at same
  obtain ⟨rfl, close⟩ := determined legal same (begins_cons rfl) (begins_cons rfl)
  exact ⟨rfl, List.tail_eq_of_cons_eq close⟩

theorem Determined.braced
    (determined : Determined yield Legal (fun kind => kind = .rbrace) first)
    (legal : Legal second)
    (same : Concrete.braced (yield first) ++ rest =
      Concrete.braced (yield second) ++ rest') :
    first = second ∧ rest = rest' := by
  simp only [Concrete.braced, List.append_assoc, List.cons_append,
    List.nil_append, List.cons.injEq, true_and] at same
  obtain ⟨rfl, close⟩ := determined legal same (begins_cons rfl) (begins_cons rfl)
  exact ⟨rfl, List.tail_eq_of_cons_eq close⟩

end Brackets

/-! ## First tokens -/

theorem Expr.yield_eq {expr : Expr} (legal : expr.Legal) :
    ∃ token tail, expr.yield = token :: tail ∧ token.kind ∈ Kind.operandStarts := by
  obtain ⟨literal, tail, same⟩ := expr.tree.yield_eq
  rw [expr.tree_yield] at same
  exact ⟨_, tail, same, expr.tree.lead_mem (expr.tree_canonical legal)⟩

theorem Stmt.yield_eq {stmt : Stmt} (legal : stmt.Legal) :
    ∃ token tail, stmt.yield = token :: tail ∧ token.kind ∈ Kind.statementStarts := by
  obtain ⟨literal, tail, same⟩ := stmt.tree.yield_eq
  rw [stmt.tree_yield] at same
  exact ⟨_, tail, same, Concrete.Stmt.lead_mem (stmt.tree_canonical legal)⟩

theorem Compound.yield_eq (form : Compound) :
    ∃ kind tail, form.yield = .ofKind kind :: tail ∧ kind.opensCompound := by
  obtain ⟨tail, same⟩ := form.tree.yield_eq
  rw [form.tree_yield] at same
  exact ⟨_, tail, same, form.tree.lead_opensCompound⟩

theorem Conditional.yield_ne {branches : Conditional} {token : Token}
    {rest tail : List Token} (other : token.kind ≠ .kwIf) :
    branches.yield ++ rest ≠ token :: tail := by
  intro same
  cases branches <;>
    (obtain ⟨rfl, -⟩ := List.cons.inj same
     exact other rfl)

theorem Compound.yield_ne {form : Compound} {token : Token} {rest tail : List Token}
    (plain : ¬ token.kind.opensCompound) : form.yield ++ rest ≠ token :: tail := by
  obtain ⟨kind, tail', same, opens⟩ := form.yield_eq
  rw [same]
  rintro ⟨⟩
  exact plain opens

theorem Primary.yield_eq (primary : Primary) :
    ∃ token tail, primary.yield = token :: tail ∧ ¬ token.kind.isUnary := by
  cases primary with
  | compound form =>
    obtain ⟨kind, tail, same, opens⟩ := form.yield_eq
    refine ⟨_, tail, same, ?_⟩
    revert opens
    cases kind <;> decide
  | _ => exact ⟨_, _, rfl, nofun⟩

private theorem Stmt.lead_eq {first second : Stmt} {rest rest' : List Token}
    (same : first.yield ++ rest = second.yield ++ rest') :
    first.tree.lead = second.tree.lead := by
  obtain ⟨literal, tail, yields⟩ := first.tree.yield_eq
  obtain ⟨literal', tail', yields'⟩ := second.tree.yield_eq
  rw [tree_yield] at yields yields'
  rw [yields, yields'] at same
  exact congrArg Token.kind (List.cons.inj same).1

private theorem begins_of_mem {kinds : Kind → Bool} {starts : List Kind} {tokens : List Token}
    (fits : ∀ kind ∈ starts, kinds kind) {token : Token} {tail : List Token}
    (same : tokens = token :: tail) (member : token.kind ∈ starts) (rest : List Token) :
    Begins kinds (tokens ++ rest) := by
  subst same
  exact begins_cons (fits _ member)

theorem Expr.not_begins {value : Expr} (legal : value.Legal) {kinds : Kind → Bool}
    (apart : ∀ kind ∈ Kind.operandStarts, ¬ kinds kind) (rest : List Token) :
    ¬ Begins kinds (value.yield ++ rest) := by
  obtain ⟨token, tail, yields, starts⟩ := Expr.yield_eq legal
  rw [yields]
  exact not_begins_cons (apart token.kind starts)

theorem Stmt.not_begins {stmt : Stmt} (legal : stmt.Legal) {kinds : Kind → Bool}
    (apart : ∀ kind ∈ Kind.statementStarts, ¬ kinds kind) (rest : List Token) :
    ¬ Begins kinds (stmt.yield ++ rest) := by
  obtain ⟨token, tail, yields, starts⟩ := Stmt.yield_eq legal
  rw [yields]
  exact not_begins_cons (apart token.kind starts)

/-- A value cannot stand for the terminator of a jump without one. -/
theorem Stmt.jump_yield_ne {word : Jump} {value : Expr} (legal : value.Legal)
    {rest rest' : List Token} :
    (Stmt.jump word none).yield ++ rest ≠ (Stmt.jump word (some value)).yield ++ rest' := by
  intro same
  have later : .ofKind .semi :: rest = value.yield ++ ([.ofKind .semi] ++ rest') := by
    simpa [Stmt.yield] using same
  have begins : Begins (fun kind => kind = .semi) (.ofKind .semi :: rest) :=
    begins_cons rfl
  rw [later] at begins
  exact Expr.not_begins legal (by decide) _ begins

theorem Unary.prefixed_yield_ne {op : Kind} (unary : op.isUnary) {operand : Unary}
    {callee : Primary} {calls : List Args} {rest rest' : List Token} :
    (Unary.prefixed op operand).yield ++ rest ≠
      (Unary.applied callee calls).yield ++ rest' := by
  intro same
  obtain ⟨token, tail, yields, plain⟩ := callee.yield_eq
  rw [Unary.yield, Unary.yield, yields] at same
  obtain ⟨rfl, -⟩ := List.cons.inj same
  exact plain unary

/-! ## Marks and names -/

/-- Whether a mark has been left out shows if nothing like it comes next. -/
theorem optionalToken_inj {kind : Kind} {ends : Kind → Bool} (noMark : ¬ ends kind)
    {written written' : Bool} {rest rest' : List Token}
    (same : optionalToken kind written ++ rest = optionalToken kind written' ++ rest')
    (begins : Begins ends rest) (begins' : Begins ends rest') :
    written = written' ∧ rest = rest' := by
  cases written <;> cases written'
  · exact ⟨rfl, same⟩
  · subst (same : rest = .ofKind kind :: rest')
    exact absurd begins.head noMark
  · subst (same : .ofKind kind :: rest = rest')
    exact absurd begins'.head noMark
  · exact ⟨rfl, List.tail_eq_of_cons_eq same⟩

theorem optionalToken_ne_more {trailing : Bool} {rest more : List Token}
    (noEnd : ¬ Begins (fun kind => kind = .rparen) more)
    (begins : Begins (fun kind => kind = .rparen) rest) :
    optionalToken .comma trailing ++ rest ≠ .ofKind .comma :: more := by
  intro same
  cases trailing with
  | false =>
    subst (same : rest = .ofKind .comma :: more)
    exact absurd begins.head (by decide)
  | true =>
    obtain rfl := List.tail_eq_of_cons_eq same
    exact noEnd begins

private theorem moreNamesYield_inj {names names' : List String} {trailing trailing' : Bool}
    {rest rest' : List Token}
    (same : Concrete.moreNamesYield trailing names ++ rest =
      Concrete.moreNamesYield trailing' names' ++ rest')
    (begins : Begins (fun kind => kind = .rparen) rest)
    (begins' : Begins (fun kind => kind = .rparen) rest') :
    names = names' ∧ trailing = trailing' ∧ rest = rest' := by
  induction names generalizing names' with
  | nil =>
    cases names' with
    | nil => exact ⟨rfl, optionalToken_inj (by decide) same begins begins'⟩
    | cons name names =>
      exact absurd same (optionalToken_ne_more (not_begins_cons (by simp)) begins)
  | cons name names ih =>
    cases names' with
    | nil =>
      exact absurd same.symm (optionalToken_ne_more (not_begins_cons (by simp)) begins')
    | cons name' names' =>
      simp only [Concrete.moreNamesYield, List.cons_append, List.cons.injEq,
        Token.mk.injEq, true_and] at same
      obtain ⟨rfl, later⟩ := same
      obtain ⟨rfl, same⟩ := ih later
      exact ⟨rfl, same⟩

theorem Names.determined (first : Names) :
    Determined Names.yield (fun _ => True) (fun kind => kind = .rparen) first := by
  intro second rest rest' _ same begins begins'
  cases first with
  | none =>
    cases second with
    | none => exact ⟨rfl, same⟩
    | listed name more trailing =>
      subst (same : rest = _)
      exact absurd begins.head nofun
  | listed name more trailing =>
    cases second with
    | none =>
      subst (same : _ = rest')
      exact absurd begins'.head nofun
    | listed name' more' trailing' =>
      simp only [yield, list, Names.trailing, Concrete.namesYield, List.cons_append,
        List.cons.injEq, Token.mk.injEq, true_and] at same
      obtain ⟨rfl, later⟩ := same
      obtain ⟨rfl, rfl, rfl⟩ := moreNamesYield_inj later begins begins'
      exact ⟨rfl, rfl⟩

/-! ## What ends a part -/

theorem Operation.begins_allYield {more : List Operation} (legal : AllLegal more)
    {rest : List Token} (begins : Begins Kind.endsExpr rest) :
    Begins Kind.endsUnary (allYield more ++ rest) := by
  cases more with
  | nil => exact begins.mono (by decide)
  | cons operation more =>
    cases operation with
    | mk op operand =>
      have binary := legal.1.1
      apply begins_cons
      revert binary
      cases op <;> decide

theorem Args.begins_allYield {calls : List Args} {rest : List Token}
    (begins : Begins Kind.endsUnary rest) :
    Begins Kind.endsPrimary (allYield calls ++ rest) := by
  cases calls with
  | nil => exact begins.mono (by decide)
  | cons args calls => exact begins_cons rfl

theorem Expr.begins_moreYield {more : List Expr} {trailing : Bool} {rest : List Token}
    (begins : Begins (fun kind => kind = .rparen) rest) :
    Begins Kind.endsExpr (moreYield trailing more ++ rest) := by
  cases more with
  | nil =>
    cases trailing with
    | false => exact begins.mono (by decide)
    | true => exact begins_cons rfl
  | cons value more => exact begins_cons rfl

theorem Stmt.begins_allYield {body : List Stmt} (legal : AllLegal body)
    {rest : List Token} (begins : Begins (fun kind => kind = .rbrace) rest) :
    Begins Kind.endsStmt (allYield body ++ rest) := by
  cases body with
  | nil => exact begins.mono (by decide)
  | cons stmt body =>
    obtain ⟨token, tail, same, starts⟩ := Stmt.yield_eq legal.1
    rw [allYield, List.append_assoc]
    exact begins_of_mem (by decide) same starts _

theorem begins_optional_semi {terminated : Bool} {rest : List Token}
    (begins : Begins Kind.endsStmt rest) :
    Begins Kind.endsPrimary (optionalToken .semi terminated ++ rest) := by
  cases terminated with
  | false => exact begins.mono (by decide)
  | true => exact begins_cons rfl

theorem Stmt.expr_yield_ne {value : Expr} (legal : (Stmt.expr value).Legal) {stmt : Stmt}
    (other : ∀ value, stmt ≠ .expr value) {rest rest' : List Token} :
    (Stmt.expr value).yield ++ rest ≠ stmt.yield ++ rest' := by
  intro same
  obtain ⟨plain, legal⟩ := legal
  have canonical := value.tree_canonical legal
  have starts := value.tree.lead_mem canonical
  obtain ⟨literal, tail, yields⟩ := value.tree.yield_eq
  rw [value.tree_yield] at yields
  rw [yield, yields] at same
  rw [yields] at plain
  generalize kind : value.tree.lead = lead at starts yields plain same
  cases stmt with
  | expr value => exact other value rfl
  | binding | continueLoop =>
    obtain ⟨⟨⟩, -⟩ := List.cons.inj same
    simp [Kind.operandStarts] at starts
  | jump word value =>
    cases word <;> cases value <;>
      (obtain ⟨⟨⟩, -⟩ := List.cons.inj same
       simp [Kind.operandStarts, Jump.kind] at starts)
  | compound form terminated =>
    obtain ⟨kind, tail', yields', opens⟩ := form.yield_eq
    rw [yield, yields'] at same
    obtain ⟨⟨⟩, -⟩ := List.cons.inj same
    exact plain (by simpa [startsCompound] using opens)
  | funcDecl name params body terminated =>
    obtain ⟨⟨⟩, later⟩ := List.cons.inj same
    obtain ⟨tail', yields'⟩ := value.tree.yield_of_func canonical kind
    rw [value.tree_yield, yields] at yields'
    obtain ⟨-, rfl⟩ := List.cons.inj yields'
    obtain ⟨⟨⟩, -⟩ := List.cons.inj later

theorem guarded_inj {condition condition' : Expr} {body body' : List Stmt}
    (determined : Determined Expr.yield Expr.Legal Kind.endsExpr condition)
    (determined' :
      Determined Stmt.allYield Stmt.AllLegal (fun kind => kind = .rbrace) body)
    (legal : condition'.Legal) (legal' : Stmt.AllLegal body') {rest rest' : List Token}
    (same : condition.yield ++ (braced (Stmt.allYield body) ++ rest) =
      condition'.yield ++ (braced (Stmt.allYield body') ++ rest')) :
    condition = condition' ∧ body = body' ∧ rest = rest' := by
  obtain ⟨rfl, later⟩ := determined legal same (begins_cons rfl) (begins_cons rfl)
  exact ⟨rfl, determined'.braced legal' later⟩

/-! ## Derivations -/

mutual

-- The first parts of both derivations agree by induction, since what follows a part ends
-- it, and then the next parts stand behind equal tokens.
theorem Expr.determined (first : Expr) (legal : first.Legal) :
    Determined Expr.yield Expr.Legal Kind.endsExpr first := by
  intro second rest rest' legal' same begins begins'
  cases first with
  | row first more =>
    cases second with
    | row first' more' =>
      simp only [Expr.yield, List.append_assoc] at same
      obtain ⟨rfl, later⟩ := first.determined legal.1 legal'.1 same
        (Operation.begins_allYield legal.2 begins)
        (Operation.begins_allYield legal'.2 begins')
      obtain ⟨rfl, rfl⟩ :=
        Operation.all_determined more legal.2 legal'.2 later begins begins'
      exact ⟨rfl, rfl⟩
termination_by structural first

theorem Operation.all_determined (first : List Operation)
    (legal : Operation.AllLegal first) :
    Determined Operation.allYield Operation.AllLegal Kind.endsExpr first := by
  intro second rest rest' legal' same begins begins'
  cases first with
  | nil =>
    cases second with
    | nil => exact ⟨rfl, same⟩
    | cons operation more =>
      cases operation with
      | mk op operand =>
        subst (same : rest = _)
        have ends : op.endsExpr := begins.head
        simp [Kind.endsExpr, legal'.1.1] at ends
  | cons operation more =>
    cases operation with
    | mk op operand =>
      cases second with
      | nil =>
        subst (same : _ = rest')
        have ends : op.endsExpr := begins'.head
        simp [Kind.endsExpr, legal.1.1] at ends
      | cons operation' more' =>
        cases operation' with
        | mk op' operand' =>
          simp only [Operation.allYield, Operation.yield, List.cons_append,
            List.append_assoc] at same
          obtain ⟨⟨⟩, later⟩ := List.cons.inj same
          obtain ⟨rfl, behind⟩ := operand.determined legal.1.2 legal'.1.2 later
            (Operation.begins_allYield legal.2 begins)
            (Operation.begins_allYield legal'.2 begins')
          obtain ⟨rfl, rfl⟩ :=
            Operation.all_determined more legal.2 legal'.2 behind begins begins'
          exact ⟨rfl, rfl⟩
termination_by structural first

theorem Unary.determined (first : Unary) (legal : first.Legal) :
    Determined Unary.yield Unary.Legal Kind.endsUnary first := by
  intro second rest rest' legal' same begins begins'
  cases first with
  | prefixed op operand =>
    cases second with
    | prefixed op' operand' =>
      obtain ⟨⟨⟩, later⟩ := List.cons.inj same
      obtain ⟨rfl, rfl⟩ := operand.determined legal.2 legal'.2 later begins begins'
      exact ⟨rfl, rfl⟩
    | applied callee calls => exact absurd same (Unary.prefixed_yield_ne legal.1)
  | applied callee calls =>
    cases second with
    | prefixed op' operand' =>
      exact absurd same.symm (Unary.prefixed_yield_ne legal'.1)
    | applied callee' calls' =>
      simp only [Unary.yield, List.append_assoc] at same
      obtain ⟨rfl, later⟩ := callee.determined legal.1 legal'.1 same
        (Args.begins_allYield begins) (Args.begins_allYield begins')
      obtain ⟨rfl, rfl⟩ :=
        Args.all_determined calls legal.2 legal'.2 later begins begins'
      exact ⟨rfl, rfl⟩
termination_by structural first

theorem Primary.determined (first : Primary) (legal : first.Legal) :
    Determined Primary.yield Primary.Legal Kind.endsPrimary first := by
  intro second rest rest' legal' same begins begins'
  cases first with
  | ident name =>
    cases second with
    | ident name' =>
      obtain ⟨⟨⟩, rfl⟩ := List.cons.inj same
      exact ⟨rfl, rfl⟩
    | compound form => exact absurd same.symm (form.yield_ne nofun)
    | _ => exact nomatch (List.cons.inj same).1
  | int digits =>
    cases second with
    | int digits' =>
      obtain ⟨⟨⟩, rfl⟩ := List.cons.inj same
      exact ⟨rfl, rfl⟩
    | compound form => exact absurd same.symm (form.yield_ne nofun)
    | _ => exact nomatch (List.cons.inj same).1
  | group inner =>
    cases second with
    | group inner' =>
      have closed :
          Determined Expr.yield Expr.Legal (fun kind => kind = .rparen) inner :=
        (inner.determined legal).mono (by decide)
      obtain ⟨rfl, rfl⟩ := closed.parenthesised legal' same
      exact ⟨rfl, rfl⟩
    | compound form => exact absurd same.symm (form.yield_ne nofun)
    | _ => exact nomatch (List.cons.inj same).1
  | compound form =>
    cases second with
    | compound form' =>
      obtain ⟨rfl, rfl⟩ := form.determined legal legal' same begins begins'
      exact ⟨rfl, rfl⟩
    | _ => exact absurd same (form.yield_ne nofun)
  | func params body =>
    cases second with
    | func params' body' =>
      simp only [Primary.yield, List.cons_append, List.append_assoc] at same
      obtain ⟨-, later⟩ := List.cons.inj same
      obtain ⟨rfl, behind⟩ := params.determined.parenthesised trivial later
      obtain ⟨rfl, rfl⟩ := (Stmt.all_determined body legal).braced legal' behind
      exact ⟨rfl, rfl⟩
    | compound form => exact absurd same.symm (form.yield_ne nofun)
    | _ => exact nomatch (List.cons.inj same).1
termination_by structural first

theorem Args.all_determined (first : List Args) (legal : Args.AllLegal first) :
    Determined Args.allYield Args.AllLegal Kind.endsUnary first := by
  intro second rest rest' legal' same begins begins'
  cases first with
  | nil =>
    cases second with
    | nil => exact ⟨rfl, same⟩
    | cons args calls =>
      subst (same : rest = _)
      exact absurd begins.head nofun
  | cons args calls =>
    cases second with
    | nil =>
      subst (same : _ = rest')
      exact absurd begins'.head nofun
    | cons args' calls' =>
      simp only [Args.allYield, List.append_assoc] at same
      obtain ⟨rfl, later⟩ := (args.determined legal.1).parenthesised legal'.1 same
      obtain ⟨rfl, rfl⟩ :=
        Args.all_determined calls legal.2 legal'.2 later begins begins'
      exact ⟨rfl, rfl⟩
termination_by structural first

theorem Args.determined (first : Args) (legal : first.Legal) :
    Determined Args.yield Args.Legal (fun kind => kind = .rparen) first := by
  intro second rest rest' legal' same begins begins'
  cases first with
  | none =>
    cases second with
    | none => exact ⟨rfl, same⟩
    | listed value more trailing =>
      subst (same : rest = _)
      rw [Args.yield, List.append_assoc] at begins
      exact absurd begins (Expr.not_begins legal'.1 (by decide) _)
  | listed value more trailing =>
    cases second with
    | none =>
      subst (same : _ = rest')
      rw [Args.yield, List.append_assoc] at begins'
      exact absurd begins' (Expr.not_begins legal.1 (by decide) _)
    | listed value' more' trailing' =>
      simp only [Args.yield, List.append_assoc] at same
      obtain ⟨rfl, later⟩ := value.determined legal.1 legal'.1 same
        (Expr.begins_moreYield begins) (Expr.begins_moreYield begins')
      obtain ⟨rfl, rfl, rfl⟩ :=
        Expr.more_determined more legal.2 legal'.2 later begins begins'
      exact ⟨rfl, rfl⟩
termination_by structural first

theorem Expr.more_determined (first : List Expr) (legal : Expr.AllLegal first)
    {second : List Expr} (legal' : Expr.AllLegal second) {trailing trailing' : Bool}
    {rest rest' : List Token}
    (same : Expr.moreYield trailing first ++ rest =
      Expr.moreYield trailing' second ++ rest')
    (begins : Begins (fun kind => kind = .rparen) rest)
    (begins' : Begins (fun kind => kind = .rparen) rest') :
    first = second ∧ trailing = trailing' ∧ rest = rest' := by
  cases first with
  | nil =>
    cases second with
    | nil => exact ⟨rfl, optionalToken_inj (by decide) same begins begins'⟩
    | cons value more =>
      rw [Expr.moreYield, Expr.moreYield, List.append_assoc] at same
      exact absurd same
        (optionalToken_ne_more (Expr.not_begins legal'.1 (by decide) _) begins)
  | cons value more =>
    cases second with
    | nil =>
      rw [Expr.moreYield, Expr.moreYield, List.append_assoc] at same
      exact absurd same.symm
        (optionalToken_ne_more (Expr.not_begins legal.1 (by decide) _) begins')
    | cons value' more' =>
      simp only [Expr.moreYield, List.cons_append, List.append_assoc] at same
      obtain ⟨-, later⟩ := List.cons.inj same
      obtain ⟨rfl, behind⟩ := value.determined legal.1 legal'.1 later
        (Expr.begins_moreYield begins) (Expr.begins_moreYield begins')
      obtain ⟨rfl, rfl, rfl⟩ :=
        Expr.more_determined more legal.2 legal'.2 behind begins begins'
      exact ⟨rfl, rfl, rfl⟩
termination_by structural first

theorem Compound.determined (first : Compound) (legal : first.Legal) :
    Determined Compound.yield Compound.Legal Kind.endsPrimary first := by
  intro second rest rest' legal' same begins begins'
  cases first with
  | block body =>
    cases second with
    | block body' =>
      obtain ⟨rfl, rfl⟩ := (Stmt.all_determined body legal).braced legal' same
      exact ⟨rfl, rfl⟩
    | conditional branches => exact absurd same.symm (branches.yield_ne nofun)
    | loop => exact nomatch (List.cons.inj same).1
  | conditional branches =>
    cases second with
    | conditional branches' =>
      obtain ⟨rfl, rfl⟩ := branches.determined legal legal' same begins begins'
      exact ⟨rfl, rfl⟩
    | _ => exact absurd same (branches.yield_ne nofun)
  | loop condition body =>
    cases second with
    | block => exact nomatch (List.cons.inj same).1
    | conditional branches => exact absurd same.symm (branches.yield_ne nofun)
    | loop condition' body' =>
      simp only [Compound.yield, List.cons_append, List.append_assoc] at same
      obtain ⟨rfl, rfl, rfl⟩ := guarded_inj (condition.determined legal.1)
        (Stmt.all_determined body legal.2) legal'.1 legal'.2 (List.cons.inj same).2
      exact ⟨rfl, rfl⟩
termination_by structural first

theorem Conditional.determined (first : Conditional) (legal : first.Legal) :
    Determined Conditional.yield Conditional.Legal Kind.endsPrimary first := by
  intro second rest rest' legal' same begins begins'
  cases first with
  | only condition body =>
    have determined := condition.determined legal.1
    have determined' := Stmt.all_determined body legal.2
    cases second with
    | only condition' body' =>
      simp only [Conditional.yield, List.cons_append, List.append_assoc] at same
      obtain ⟨rfl, rfl, rfl⟩ := guarded_inj determined determined' legal'.1 legal'.2
        (List.cons.inj same).2
      exact ⟨rfl, rfl⟩
    | orElse condition' body' other' | elseIf condition' body' next' =>
      simp only [Conditional.yield, List.cons_append, List.append_assoc] at same
      obtain ⟨-, -, rfl⟩ := guarded_inj determined determined' legal'.1 legal'.2.1
        (List.cons.inj same).2
      exact absurd begins.head nofun
  | orElse condition body other =>
    have determined := condition.determined legal.1
    have determined' := Stmt.all_determined body legal.2.1
    cases second with
    | only condition' body' =>
      simp only [Conditional.yield, List.cons_append, List.append_assoc] at same
      obtain ⟨-, -, rfl⟩ := guarded_inj determined determined' legal'.1 legal'.2
        (List.cons.inj same).2
      exact absurd begins'.head nofun
    | orElse condition' body' other' =>
      simp only [Conditional.yield, List.cons_append, List.append_assoc] at same
      obtain ⟨rfl, rfl, later⟩ := guarded_inj determined determined' legal'.1 legal'.2.1
        (List.cons.inj same).2
      obtain ⟨rfl, rfl⟩ := (Stmt.all_determined other legal.2.2).braced legal'.2.2
        (List.cons.inj later).2
      exact ⟨rfl, rfl⟩
    | elseIf condition' body' next' =>
      simp only [Conditional.yield, List.cons_append, List.append_assoc] at same
      obtain ⟨-, -, later⟩ := guarded_inj determined determined' legal'.1 legal'.2.1
        (List.cons.inj same).2
      exact absurd (List.cons.inj later).2.symm (next'.yield_ne nofun)
  | elseIf condition body next =>
    have determined := condition.determined legal.1
    have determined' := Stmt.all_determined body legal.2.1
    cases second with
    | only condition' body' =>
      simp only [Conditional.yield, List.cons_append, List.append_assoc] at same
      obtain ⟨-, -, rfl⟩ := guarded_inj determined determined' legal'.1 legal'.2
        (List.cons.inj same).2
      exact absurd begins'.head nofun
    | orElse condition' body' other' =>
      simp only [Conditional.yield, List.cons_append, List.append_assoc] at same
      obtain ⟨-, -, later⟩ := guarded_inj determined determined' legal'.1 legal'.2.1
        (List.cons.inj same).2
      exact absurd (List.cons.inj later).2 (next.yield_ne nofun)
    | elseIf condition' body' next' =>
      simp only [Conditional.yield, List.cons_append, List.append_assoc] at same
      obtain ⟨rfl, rfl, later⟩ := guarded_inj determined determined' legal'.1 legal'.2.1
        (List.cons.inj same).2
      obtain ⟨rfl, rfl⟩ := next.determined legal.2.2 legal'.2.2 (List.cons.inj later).2
        begins begins'
      exact ⟨rfl, rfl⟩
termination_by structural first

theorem Stmt.determined (first : Stmt) (legal : first.Legal) :
    Determined Stmt.yield Stmt.Legal Kind.endsStmt first := by
  intro second rest rest' legal' same begins begins'
  have leads := Stmt.lead_eq same
  cases first with
  | expr value =>
    cases second with
    | expr value' =>
      simp only [Stmt.yield, List.append_assoc, List.cons_append,
        List.nil_append] at same
      obtain ⟨rfl, later⟩ := value.determined legal.2 legal'.2 same (begins_cons rfl)
        (begins_cons rfl)
      exact ⟨rfl, List.tail_eq_of_cons_eq later⟩
    | _ => exact absurd same (Stmt.expr_yield_ne legal (by simp))
  | binding name value =>
    cases second with
    | expr value' =>
      exact absurd same.symm (Stmt.expr_yield_ne legal' (by simp))
    | binding name' value' =>
      simp only [Stmt.yield, List.append_assoc, List.cons_append, List.nil_append,
        List.cons.injEq, Token.mk.injEq, true_and] at same
      obtain ⟨rfl, later⟩ := same
      obtain ⟨rfl, behind⟩ := value.determined legal legal' later (begins_cons rfl)
        (begins_cons rfl)
      exact ⟨rfl, List.tail_eq_of_cons_eq behind⟩
    | jump word value' => cases word <;> cases value' <;> cases leads
    | compound form => cases form <;> cases leads
    | continueLoop | funcDecl => cases leads
  | jump word value =>
    cases second with
    | expr value' => exact absurd same.symm (Stmt.expr_yield_ne legal' (by simp))
    | jump word' value' =>
      have words : word = word' := by
        cases word <;> cases word' <;> cases value <;> cases value' <;>
          first | rfl | cases leads
      subst words
      cases value with
      | none =>
        cases value' with
        | none => exact ⟨rfl, (List.cons.inj (List.cons.inj same).2).2⟩
        | some value' => exact absurd same (Stmt.jump_yield_ne legal')
      | some value =>
        cases value' with
        | none => exact absurd same.symm (Stmt.jump_yield_ne legal)
        | some value' =>
          simp only [Stmt.yield, List.append_assoc, List.cons_append,
            List.nil_append] at same
          obtain ⟨rfl, later⟩ := value.determined legal legal' (List.cons.inj same).2
            (begins_cons rfl) (begins_cons rfl)
          exact ⟨rfl, List.tail_eq_of_cons_eq later⟩
    | compound form => cases word <;> cases value <;> cases form <;> cases leads
    | binding | continueLoop | funcDecl =>
      cases word <;> cases value <;> cases leads
  | continueLoop =>
    cases second with
    | expr value' => exact absurd same.symm (Stmt.expr_yield_ne legal' (by simp))
    | continueLoop =>
      obtain ⟨-, later⟩ := List.cons.inj same
      exact ⟨rfl, List.tail_eq_of_cons_eq later⟩
    | jump word value => cases word <;> cases value <;> cases leads
    | compound form => cases form <;> cases leads
    | binding | funcDecl => cases leads
  | compound form terminated =>
    cases second with
    | expr value' => exact absurd same.symm (Stmt.expr_yield_ne legal' (by simp))
    | compound form' terminated' =>
      simp only [Stmt.yield, List.append_assoc] at same
      obtain ⟨rfl, later⟩ := form.determined legal legal' same
        (begins_optional_semi begins) (begins_optional_semi begins')
      obtain ⟨rfl, rfl⟩ := optionalToken_inj (by decide) later begins begins'
      exact ⟨rfl, rfl⟩
    | jump word value => cases form <;> cases word <;> cases value <;> cases leads
    | binding | continueLoop | funcDecl => cases form <;> cases leads
  | funcDecl name params body terminated =>
    cases second with
    | expr value' => exact absurd same.symm (Stmt.expr_yield_ne legal' (by simp))
    | funcDecl name' params' body' terminated' =>
      simp only [Stmt.yield, List.append_assoc, List.cons_append, List.cons.injEq,
        Token.mk.injEq, true_and] at same
      obtain ⟨rfl, later⟩ := same
      obtain ⟨rfl, behind⟩ := params.determined.parenthesised trivial later
      obtain ⟨rfl, last⟩ := (Stmt.all_determined body legal).braced legal' behind
      obtain ⟨rfl, rfl⟩ := optionalToken_inj (by decide) last begins begins'
      exact ⟨rfl, rfl⟩
    | jump word value => cases word <;> cases value <;> cases leads
    | compound form => cases form <;> cases leads
    | binding | continueLoop => cases leads
termination_by structural first

theorem Stmt.all_determined (first : List Stmt) (legal : Stmt.AllLegal first) :
    Determined Stmt.allYield Stmt.AllLegal (fun kind => kind = .rbrace) first := by
  intro second rest rest' legal' same begins begins'
  cases first with
  | nil =>
    cases second with
    | nil => exact ⟨rfl, same⟩
    | cons stmt body =>
      subst (same : rest = _)
      rw [Stmt.allYield, List.append_assoc] at begins
      exact absurd begins (Stmt.not_begins legal'.1 (by decide) _)
  | cons stmt body =>
    cases second with
    | nil =>
      subst (same : _ = rest')
      rw [Stmt.allYield, List.append_assoc] at begins'
      exact absurd begins' (Stmt.not_begins legal.1 (by decide) _)
    | cons stmt' body' =>
      simp only [Stmt.allYield, List.append_assoc] at same
      obtain ⟨rfl, later⟩ := stmt.determined legal.1 legal'.1 same
        (Stmt.begins_allYield legal.2 begins) (Stmt.begins_allYield legal'.2 begins')
      obtain ⟨rfl, rfl⟩ :=
        Stmt.all_determined body legal.2 legal'.2 later begins begins'
      exact ⟨rfl, rfl⟩
termination_by structural first

end

theorem Stmt.allYield_injective {first second : List Stmt} (legal : AllLegal first)
    (legal' : AllLegal second) (same : allYield first = allYield second) :
    first = second := by
  have same : allYield first ++ [] = allYield second ++ [] := congrArg (· ++ []) same
  exact (all_determined first legal legal' same nofun nofun).1

end Derivation

/-- Precedence leaves no choice: the tokens of a canonical tree determine it. -/
theorem Concrete.Expr.yield_injective {first second : Concrete.Expr}
    (canonical : first.Canonical) (canonical' : second.Canonical)
    (same : first.yield = second.yield) : first = second := by
  obtain ⟨derivation, legal, rfl⟩ :=
    Derivation.exists_of_groups (first.exists_groups canonical)
  obtain ⟨derivation', legal', rfl⟩ :=
    Derivation.exists_of_groups (second.exists_groups canonical')
  rw [derivation.tree_yield, derivation'.tree_yield] at same
  have same : derivation.yield ++ [] = derivation'.yield ++ [] :=
    congrArg (· ++ []) same
  rw [(derivation.determined legal legal' same nofun nofun).1]

end OasisSyntax
