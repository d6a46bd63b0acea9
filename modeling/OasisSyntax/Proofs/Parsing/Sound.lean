import OasisSyntax.Proofs.Parsing.Complete
import OasisSyntax.Proofs.Parsing.Reads

/-!
# What is read is canonical

Settling and taking a token keep the relation between a state and the tokens that led
to it.  So the tokens of every run that ends with a result are the yield of a
canonical tree for that result.
-/

namespace OasisSyntax

open Concrete (parenthesised braced optionalToken)

variable {goal : Goal} {next : Kind}

/-! ## Finishing forms -/

theorem State.Reads.of_eq {state : State goal} {taken tokens : List Token}
    (reads : state.Reads next taken) (same : taken = tokens) :
    state.Reads next tokens := same ▸ reads

theorem State.Reads.unterminated (tree : Concrete.Stmt) {outer : SeqContext goal}
    {taken part : List Token} (canonical : tree.Canonical)
    (yields : tree.yield = part ++ [.ofKind .semi]) (outside : outer.Reads taken) :
    (State.statementEnd tree.erase true outer).Reads next (taken ++ part) :=
  .statementEnd ⟨tree, canonical, rfl, yields⟩ nofun outside

theorem State.Reads.innerOperand {outer : ExprContext goal} {taken : List Token}
    (inner : outer.isStatement = false) (outside : outer.Reads taken) :
    (State.operand outer).Reads next taken :=
  .operand (fun statement => absurd (inner.symm.trans statement) Bool.false_ne_true)
    outside

theorem Concrete.Expr.not_isBinary_of_level {tree : Concrete.Expr}
    (strong : Precedence.unary < tree.level) (canonical : tree.Canonical) :
    ¬ tree.isBinary := by
  cases tree with
  | binary left op right =>
    have range := Kind.level_of_isBinary canonical.1
    exact absurd strong (Nat.lt_asymm range.2)
  | _ => exact Bool.false_ne_true

theorem Concrete.Expr.fitsRightOf_of_level {op : Kind} {tree : Concrete.Expr}
    (strong : op.rightFloor < tree.level) (canonical : tree.Canonical) :
    tree.FitsRightOf op := by
  cases tree with
  | binary left inner right => exact (Kind.rightFloor_lt_iff canonical.1).1 strong
  | _ => trivial

theorem ExprContext.Reads.floor_lt {outer : ExprContext goal} {taken : List Token}
    (reads : outer.Reads taken) : outer.floor < .call := by
  cases reads with
  | rightOperand binary => exact Kind.rightFloor_lt_call binary
  | _ => simp [floor, Precedence.lt_iff]

private theorem SeqContext.Reads.emptyProgram : (SeqContext.program []).Reads [] :=
  @SeqContext.Reads.program [] trivial

theorem SeqContext.Reads.emptyBlock {owner : BlockContext goal} {taken : List Token}
    (outside : owner.Reads taken) :
    (SeqContext.block [] owner).Reads (taken ++ [.ofKind .lbrace]) :=
  @SeqContext.Reads.block _ [] _ _ trivial outside

theorem SeqContext.Reads.push {outer : SeqContext goal} {taken : List Token}
    (reads : outer.Reads taken) {stmt : Concrete.Stmt} (canonical : stmt.Canonical) :
    (outer.push stmt.erase).Reads (taken ++ stmt.yield) := by
  cases reads with
  | program canonicals =>
    rw [← Concrete.Stmt.allYield_snoc, SeqContext.push, ← Concrete.Stmt.eraseAll_snoc]
    exact .program (Concrete.Stmt.allCanonical_snoc canonicals canonical)
  | block canonicals outside =>
    rw [List.append_assoc, List.cons_append, ← Concrete.Stmt.allYield_snoc,
      SeqContext.push, ← Concrete.Stmt.eraseAll_snoc]
    exact .block (Concrete.Stmt.allCanonical_snoc canonicals canonical) outside

theorem Place.Reads.finish {place : Place goal} {taken : List Token}
    (reads : place.Reads taken) (form : Concrete.Compound)
    (canonical : form.Canonical) :
    (place.finish form.erase).Reads next (taken ++ form.yield) := by
  cases reads with
  | statement outside =>
    refine .statementEnd ⟨.compound form true, canonical, rfl, rfl⟩ (fun _ => ?_) outside
    exact ⟨.compound form false, canonical, rfl, List.append_nil _⟩
  | operand inside outside =>
    have admits : ExprContext.Admits _ (.compound form) :=
      ⟨canonical, outside.floor_lt, fun outermost => absurd outermost inside⟩
    exact .value admits (Precedence.le_call _) outside

theorem ChainContext.Reads.finish {chain : ChainContext goal} {taken : List Token}
    (reads : chain.Reads taken) (branches : Concrete.Conditional)
    (canonical : branches.Canonical) :
    (chain.finish branches.erase).Reads next (taken ++ branches.yield) := by
  match chain, reads with
  | .first place, .first outside =>
    exact outside.finish (.conditional branches) canonical
  | .next _ _ before, .next canonical' canonicals outside =>
    have whole : (Concrete.Conditional.elseIf _ _ branches).Canonical :=
      ⟨canonical', canonicals, canonical⟩
    exact (ChainContext.Reads.finish outside _ whole).of_eq
      (by simp [Concrete.Conditional.yield])

theorem FuncContext.Reads.finish {func : FuncContext goal} {taken : List Token}
    (reads : func.Reads taken) (params : List String) (trailing : Bool)
    (comma : trailing → params ≠ []) {body : List Concrete.Stmt}
    (canonicals : Concrete.Stmt.AllCanonical body) :
    (func.finish params (Concrete.Stmt.eraseAll body)).Reads next
      (taken ++ parenthesised (Concrete.namesYield trailing params) ++
        braced (Concrete.Stmt.allYield body)) := by
  cases reads with
  | @declaration _ name outer taken outside =>
    let tree := Concrete.Stmt.funcDecl name params trailing body
    have ends : ((FuncContext.declaration name outer).finish params
        (Concrete.Stmt.eraseAll body)).Reads next (taken ++ (tree false).yield) := by
      refine .statementEnd ⟨tree true, ⟨comma, canonicals⟩, rfl, ?_⟩
        (fun _ => ⟨tree false, ⟨comma, canonicals⟩, rfl, rfl⟩) outside
      simp [tree, Concrete.Stmt.yield, optionalToken]
    exact ends.of_eq (by simp [tree, Concrete.Stmt.yield, optionalToken])
  | @literal _ outer taken outside =>
    have admits : outer.Admits (.func params trailing body) :=
      ⟨⟨comma, canonicals⟩, outside.floor_lt, fun _ => Bool.false_ne_true⟩
    exact (State.Reads.value admits (Precedence.le_call _) outside).of_eq
      (by simp [Concrete.Expr.yield])

theorem BlockContext.Reads.finish {owner : BlockContext goal} {taken : List Token}
    (reads : owner.Reads taken) {body : List Concrete.Stmt}
    (canonicals : Concrete.Stmt.AllCanonical body) :
    (owner.finish (Concrete.Stmt.eraseAll body)).Reads next
      (taken ++ braced (Concrete.Stmt.allYield body)) := by
  cases reads with
  | plain outside => exact outside.finish (.block body) canonicals
  | thenBranch canonical outside =>
    exact (State.Reads.thenEnd canonical canonicals outside).of_eq (by simp)
  | elseBranch canonical canonicals' outside =>
    exact (outside.finish (.orElse _ _ body)
      ⟨canonical, canonicals', canonicals⟩).of_eq (by simp [Concrete.Conditional.yield])
  | loopBody canonical outside =>
    exact (outside.finish (.loop _ body) ⟨canonical, canonicals⟩).of_eq
      (by simp [Concrete.Compound.yield])
  | funcBody trailing comma outside => exact outside.finish _ trailing comma canonicals

theorem ExprContext.Reads.finish_of_close {outer : ExprContext goal}
    {taken : List Token} (reads : outer.Reads taken) {tree : Concrete.Expr}
    (admits : outer.Admits tree) (ends : ¬ tree.floor < next.precedence)
    (close : ¬ outer.floor < next.precedence →
      (outer.finish next tree.erase).Reads next (taken ++ tree.yield)) :
    (outer.finish next tree.erase).Reads next (taken ++ tree.yield) := by
  by_cases stronger : outer.floor < next.precedence
  · rw [ExprContext.finish_of_lt stronger]
    exact .value admits ends reads
  · exact close stronger

-- Each context that is left hands the tree to the one around it, so this goes from the
-- inside to the outside, and the tree grows on the way.
theorem ExprContext.Reads.finish : ∀ {goal : Goal} (outer : ExprContext goal)
    {taken : List Token} {tree : Concrete.Expr}, outer.Reads taken → outer.Admits tree →
    ¬ tree.floor < next.precedence →
    (outer.finish next tree.erase).Reads next (taken ++ tree.yield)
  | _, .whole, _, tree, reads, admits, ends =>
    reads.finish_of_close admits ends fun stronger => by
      simp only [ExprContext.finish, Kind.goesOn_iff, stronger, if_false]
      exact .value admits ends reads
  | _, .unaryOperand op outer, _, tree, reads, admits, ends =>
    reads.finish_of_close admits ends fun stronger => by
      cases reads with
      | unaryOperand unary outside =>
        rw [ExprContext.finish_unaryOperand stronger]
        have noBinary : ¬ tree.isBinary := Concrete.Expr.not_isBinary_of_level
          admits.stronger admits.canonical
        have admits' : outer.Admits (.unary op tree) :=
          ⟨⟨unary, noBinary, admits.canonical⟩, outside.floor_lt,
            fun _ => Bool.false_ne_true⟩
        exact (finish outer outside admits' stronger).of_eq
          (by simp [Concrete.Expr.yield])
  | _, .rightOperand _ op outer, _, tree, reads, admits, ends =>
    reads.finish_of_close admits ends fun stronger => by
      cases reads with
      | @rightOperand _ left _ _ taken binary weaker admits' fits outside =>
        rw [ExprContext.finish_rightOperand stronger]
        have canonical : (Concrete.Expr.binary left op tree).Canonical :=
          ⟨binary, fits,
            Concrete.Expr.fitsRightOf_of_level admits.stronger admits.canonical,
            admits'.canonical, admits.canonical⟩
        have together : outer.Admits (.binary left op tree) :=
          ⟨canonical, weaker, admits'.plain⟩
        exact (finish outer outside together stronger).of_eq
          (by simp [Concrete.Expr.yield])
  | _, .group outer, _, tree, reads, admits, ends =>
    reads.finish_of_close admits ends fun stronger => by
      cases reads with
      | group outside =>
        simp only [ExprContext.finish, Kind.goesOn_iff, stronger, if_false]
        exact (State.Reads.groupEnd admits.canonical outside).of_eq (by simp)
  | _, .argument _ _ outer, _, tree, reads, admits, ends =>
    reads.finish_of_close admits ends fun stronger => by
      cases reads with
      | argument admits' primary canonicals outside =>
        simp only [ExprContext.finish, Kind.goesOn_iff, stronger, if_false]
        rw [← Concrete.Expr.eraseAll_snoc]
        have canonicals' := Concrete.Expr.allCanonical_snoc canonicals admits.canonical
        exact (State.Reads.argumentEnd false admits' primary (by simp) canonicals'
          (fun _ => ⟨by simp, rfl⟩) outside).of_eq
            (by simp [Concrete.Expr.argsYield_snoc, optionalToken])
  | _, .ifCondition chain, _, tree, reads, admits, ends =>
    reads.finish_of_close admits ends fun stronger => by
      cases reads with
      | ifCondition outside =>
        simp only [ExprContext.finish, Kind.goesOn_iff, stronger, if_false]
        exact (State.Reads.blockStart (.thenBranch admits.canonical outside)).of_eq
          (by simp)
  | _, .loopCondition place, _, tree, reads, admits, ends =>
    reads.finish_of_close admits ends fun stronger => by
      cases reads with
      | loopCondition outside =>
        simp only [ExprContext.finish, Kind.goesOn_iff, stronger, if_false]
        exact (State.Reads.blockStart (.loopBody admits.canonical outside)).of_eq
          (by simp)
  | _, .boundValue name outer, _, tree, reads, admits, ends =>
    reads.finish_of_close admits ends fun stronger => by
      cases reads with
      | boundValue outside =>
        simp only [ExprContext.finish, Kind.goesOn_iff, stronger, if_false]
        exact (State.Reads.unterminated (.binding name tree) admits.canonical rfl
          outside).of_eq (by simp)
  | _, .jumpValue word outer, _, tree, reads, admits, ends =>
    reads.finish_of_close admits ends fun stronger => by
      cases reads with
      | jumpValue outside =>
        simp only [ExprContext.finish, Kind.goesOn_iff, stronger, if_false]
        exact (State.Reads.unterminated (.jump word (some tree)) admits.canonical
          rfl outside).of_eq (by simp)
  | _, .statement outer, _, tree, reads, admits, ends =>
    reads.finish_of_close admits ends fun stronger => by
      cases reads with
      | statement outside =>
        simp only [ExprContext.finish, Kind.goesOn_iff, stronger, if_false]
        exact State.Reads.unterminated (.expr tree)
          ⟨admits.plain rfl, admits.canonical⟩ rfl outside

/-! ## Settling -/

namespace State.Reads

variable {state : State goal} {taken : List Token}

theorem finishForm (reads : state.Reads next taken) :
    (state.finishForm next).Reads next taken := by
  have kept := reads
  cases reads with
  | thenEnd canonical canonicals outside =>
    simp only [State.finishForm]
    split
    · exact kept
    · exact (outside.finish (.only _ _) ⟨canonical, canonicals⟩).of_eq
        (by simp [Concrete.Conditional.yield])
  | @jumpStart word outer taken outside =>
    simp only [State.finishForm]
    split
    · exact unterminated (.jump word none) trivial rfl outside
    · exact .innerOperand rfl (.jumpValue outside)
  | _ => exact kept

theorem finishExpr (reads : state.Reads next taken) :
    (state.finishExpr next).Reads next taken := by
  have kept := reads
  cases reads with
  | value admits ends outside => exact outside.finish _ admits ends
  | _ => exact kept

theorem finishStmt (reads : state.Reads next taken) :
    (state.finishStmt next).Reads next taken := by
  have kept := reads
  cases reads with
  | @statementEnd stmt required outer taken part closed free outside =>
    cases required with
    | true => exact kept
    | false =>
      simp only [State.finishStmt]
      split
      · exact kept
      · obtain ⟨tree, canonical, rfl, rfl⟩ := free rfl
        exact .statement (outside.push canonical)
  | _ => exact kept

theorem openForm (reads : state.Reads next taken) :
    (state.openForm next).Reads next taken := by
  have kept := reads
  cases reads with
  | @statement outer taken outside =>
    simp only [State.openForm]
    split
    · exact kept
    · rename_i expression
      refine .operand (fun _ opens => expression ?_) (.statement outside)
      revert opens
      cases next <;> first | exact fun _ => rfl | (intro opens; contradiction)
  | @argumentStart callee before outer taken admits primary canonicals outside =>
    simp only [State.openForm]
    split
    · rename_i close
      obtain ⟨trailing, comma, same⟩ := Concrete.Expr.exists_argsYield before
      rw [← same]
      exact .argumentEnd trailing admits primary comma canonicals
        (fun more => by simp [close] at more) outside
    · exact .innerOperand rfl (.argument admits primary canonicals outside)
  | funcStart outside =>
    simp only [State.openForm]
    split
    · exact .paramsStart (.literal (.statement outside))
    · exact kept
  | @paramStart before func taken outside =>
    simp only [State.openForm]
    split
    · rename_i close
      obtain ⟨trailing, comma, same⟩ := Concrete.exists_namesYield before
      rw [← same]
      exact .paramEnd trailing comma (fun more => by simp [close] at more) outside
    · exact kept
  | elseStart canonical canonicals outside =>
    simp only [State.openForm]
    split
    · exact kept
    · exact .blockStart (.elseBranch canonical canonicals outside)
  | _ => exact kept

theorem settle (reads : state.Reads next taken) :
    (state.settle next).Reads next taken :=
  reads.finishForm.finishExpr.finishStmt.openForm

end State.Reads

/-! ## Taking a token -/

namespace State

theorem eq_of_onKind {kind : Kind} {token : Token} {fit after : State goal}
    (fits : onKind kind token fit = some after) : token.kind = kind ∧ fit = after := by
  simp only [onKind] at fits
  split at fits
  · exact ⟨‹_›, Option.some.inj fits⟩
  · contradiction

private theorem opensCompound_of_openCompound {place : Place goal} {kind : Kind}
    {after : State goal} (fits : openCompound? place kind = some after) :
    kind.opensCompound := by
  unfold openCompound? at fits
  split at fits <;> first | rfl | cases fits

theorem Reads.openCompound {place : Place goal} {taken : List Token} {kind : Kind}
    {after : State goal} (reads : place.Reads taken)
    (fits : openCompound? place kind = some after) :
    after.Reads next (taken ++ [.ofKind kind]) := by
  unfold openCompound? at fits
  split at fits <;> cases fits
  · exact .statement (.emptyBlock (.plain reads))
  · exact .innerOperand rfl (.ifCondition (.first reads))
  · exact .innerOperand rfl (.loopCondition reads)

private theorem Reads.shiftStatement {outer : SeqContext goal} {taken : List Token} {kind : Kind}
    {after : State goal} (outside : outer.Reads taken)
    (fits : shiftStatement? outer kind = some after) :
    after.Reads next (taken ++ [.ofKind kind]) := by
  unfold shiftStatement? at fits
  split at fits
  · cases fits
    exact .boundName outside
  · cases fits
    exact .jumpStart outside
  · cases fits
    exact .jumpStart outside
  · cases fits
    exact unterminated (.continueLoop) trivial rfl outside
  · cases fits
    exact .funcStart outside
  · cases outside with
    | program canonicals => contradiction
    | block canonicals outside =>
      cases fits
      exact (outside.finish canonicals).of_eq (by simp [braced])
  · exact Reads.openCompound (.statement outside) fits

private theorem Reads.shiftOperand {outer : ExprContext goal} {taken : List Token}
    {token : Token} {after : State goal}
    (inside : outer.isStatement → ¬ token.kind.opensCompound)
    (outside : outer.Reads taken) (fits : shiftOperand? outer token = some after) :
    after.Reads next (taken ++ [token.plain]) := by
  obtain ⟨kind, literal⟩ := token
  simp only [shiftOperand?] at fits
  split at fits
  · cases fits
    have admits : outer.Admits (.ident literal) :=
      ⟨trivial, outside.floor_lt, fun _ => Bool.false_ne_true⟩
    exact .value admits (Precedence.le_call _) outside
  · cases fits
    have admits : outer.Admits (.int literal) :=
      ⟨trivial, outside.floor_lt, fun _ => Bool.false_ne_true⟩
    exact .value admits (Precedence.le_call _) outside
  · cases fits
    exact .innerOperand rfl (.unaryOperand rfl outside)
  · cases fits
    exact .innerOperand rfl (.unaryOperand rfl outside)
  · cases fits
    exact .innerOperand rfl (.unaryOperand rfl outside)
  · cases fits
    exact .innerOperand rfl (.group outside)
  · cases fits
    exact .paramsStart (.literal outside)
  · have opens := opensCompound_of_openCompound fits
    have plain : Token.plain ⟨kind, literal⟩ = .ofKind kind :=
      Token.plain_of_kind rfl (by rintro rfl; cases opens) (by rintro rfl; cases opens)
    rw [plain]
    exact openCompound (.operand (fun outermost => inside outermost opens) outside) fits

theorem not_isOperation_of_floor {tree : Concrete.Expr} (canonical : tree.Canonical)
    (strong : ¬ tree.floor < .call) : ¬ tree.isOperation := by
  cases tree with
  | unary op operand => exact absurd (show Precedence.unary < .call by decide) strong
  | binary left op right =>
    have range := Kind.level_of_isBinary canonical.1
    have floor := Kind.rightFloor_le op
    simp only [Concrete.Expr.floor, Precedence.lt_iff, Precedence.level_unary,
      Precedence.level_call] at *
    omega
  | _ => exact Bool.false_ne_true

theorem fitsLeftOf_of_floor {op : Kind} (binary : op.isBinary) {tree : Concrete.Expr}
    (strong : ¬ tree.floor < op.precedence) : tree.FitsLeftOf op := by
  cases tree with
  | binary left inner right =>
    have apart := mt (Kind.rightFloor_lt_iff binary).2 strong
    exact ⟨fun right => apart (.inl right), fun below => apart (.inr below)⟩
  | _ => trivial

private theorem Reads.shiftValue {tree : Concrete.Expr} {outer : ExprContext goal}
    {taken : List Token} {kind : Kind} {after : State goal} (admits : outer.Admits tree)
    (ends : ¬ tree.floor < kind.precedence)
    (bound : outer.floor < kind.precedence ∨ outer.isWhole)
    (outside : outer.Reads taken)
    (fits : shiftValue? tree.erase outer kind = some after) :
    after.Reads next (taken ++ tree.yield ++ [.ofKind kind]) := by
  simp only [shiftValue?] at fits
  split at fits
  · rename_i call
    subst call
    cases fits
    exact @argumentStart _ _ _ [] _ _ admits
      (not_isOperation_of_floor admits.canonical ends) trivial outside
  · split at fits
    · rename_i binary
      cases fits
      have stronger : outer.floor < kind.precedence := by
        rcases bound with stronger | whole
        · exact stronger
        · cases outer with
          | whole => exact (Kind.level_of_isBinary binary).1
          | _ => contradiction
      exact .innerOperand rfl
        (.rightOperand binary stronger admits (fitsLeftOf_of_floor binary ends) outside)
    · contradiction

theorem Reads.shift {state after : State goal} {taken : List Token} {token : Token}
    (reads : state.Reads token.kind taken)
    (bound : ∀ {value outer}, state = .value value outer →
      outer.floor < token.kind.precedence ∨ outer.isWhole)
    (fits : state.shift? token = some after) :
    after.Reads next (taken ++ [token.plain]) := by
  cases reads with
  | statement outside =>
    have plain : token.plain = .ofKind token.kind :=
      Token.plain_of_kind rfl
        (fun name => by simp [State.shift?, name] at fits; contradiction)
        (fun int => by simp [State.shift?, int] at fits; contradiction)
    rw [plain]
    exact shiftStatement outside fits
  | operand inside outside => exact shiftOperand inside outside fits
  | @value tree outer taken admits ends outside =>
    have plain : token.plain = .ofKind token.kind :=
      Token.plain_of_kind rfl
        (fun name => by simp [State.shift?, name] at fits; contradiction)
        (fun int => by simp [State.shift?, int] at fits; contradiction)
    rw [plain]
    exact shiftValue admits ends (bound rfl) outside fits
  | @groupEnd inner outer taken canonical outside =>
    obtain ⟨kind, rfl⟩ := eq_of_onKind fits
    rw [Token.plain_of_kind kind (by decide) (by decide)]
    have admits : outer.Admits (.group inner) :=
      ⟨canonical, outside.floor_lt, fun _ => Bool.false_ne_true⟩
    exact (value admits (Precedence.le_call _) outside).of_eq
      (by simp [Concrete.Expr.yield, parenthesised])
  | argumentStart | jumpStart => contradiction
  | @argumentEnd callee args trailing outer taken admits primary comma canonicals more
      outside =>
    simp only [State.shift?] at fits
    split at fits
    · rename_i kind
      cases fits
      obtain ⟨some, rfl⟩ := more kind
      rw [Token.plain_of_kind kind (by decide) (by decide)]
      exact (argumentStart admits primary canonicals outside).of_eq
        (by simp [Concrete.Expr.argsYield_true some])
    · obtain ⟨kind, rfl⟩ := eq_of_onKind fits
      rw [Token.plain_of_kind kind (by decide) (by decide)]
      have admits : outer.Admits (.call callee args trailing) :=
        ⟨⟨primary, comma, admits.canonical, canonicals⟩, outside.floor_lt, admits.plain⟩
      exact (value admits (Precedence.le_call _) outside).of_eq
        (by simp [Concrete.Expr.yield, parenthesised])
  | statementEnd closed free outside =>
    obtain ⟨kind, rfl⟩ := eq_of_onKind fits
    obtain ⟨tree, canonical, rfl, yields⟩ := closed
    rw [Token.plain_of_kind kind (by decide) (by decide)]
    exact (statement (outside.push canonical)).of_eq (by simp [yields])
  | boundName outside =>
    obtain ⟨kind, rfl⟩ := eq_of_onKind fits
    rw [Token.plain_of_ident kind]
    exact (boundSign outside).of_eq (by simp)
  | @boundSign name outer taken outside =>
    obtain ⟨kind, rfl⟩ := eq_of_onKind fits
    rw [Token.plain_of_kind kind (by decide) (by decide)]
    have inner : (ExprContext.boundValue name outer).isStatement = false := rfl
    exact (innerOperand inner (.boundValue outside)).of_eq (by simp)
  | funcStart outside =>
    obtain ⟨kind, rfl⟩ := eq_of_onKind fits
    rw [Token.plain_of_ident kind]
    exact (paramsStart (.declaration outside)).of_eq (by simp)
  | paramsStart outside =>
    obtain ⟨kind, rfl⟩ := eq_of_onKind fits
    rw [Token.plain_of_kind kind (by decide) (by decide)]
    exact @paramStart _ _ [] _ _ outside
  | paramStart outside =>
    obtain ⟨kind, rfl⟩ := eq_of_onKind fits
    rw [Token.plain_of_ident kind]
    exact (paramEnd false (by simp) (fun _ => ⟨by simp, rfl⟩) outside).of_eq
      (by simp [Concrete.namesYield_snoc, optionalToken])
  | @paramEnd params trailing func taken comma more outside =>
    simp only [State.shift?] at fits
    split at fits
    · rename_i kind
      cases fits
      obtain ⟨some, rfl⟩ := more kind
      rw [Token.plain_of_kind kind (by decide) (by decide)]
      exact (paramStart outside).of_eq (by simp [Concrete.namesYield_true some])
    · obtain ⟨kind, rfl⟩ := eq_of_onKind fits
      rw [Token.plain_of_kind kind (by decide) (by decide)]
      exact (blockStart (.funcBody trailing comma outside)).of_eq
        (by simp [parenthesised])
  | blockStart outside =>
    obtain ⟨kind, rfl⟩ := eq_of_onKind fits
    rw [Token.plain_of_kind kind (by decide) (by decide)]
    exact statement (.emptyBlock outside)
  | thenEnd canonical canonicals outside =>
    obtain ⟨kind, rfl⟩ := eq_of_onKind fits
    rw [Token.plain_of_kind kind (by decide) (by decide)]
    exact elseStart canonical canonicals outside
  | elseStart canonical canonicals outside =>
    obtain ⟨kind, rfl⟩ := eq_of_onKind fits
    rw [Token.plain_of_kind kind (by decide) (by decide)]
    exact innerOperand rfl (.ifCondition (.next canonical canonicals outside))

/-- One token keeps the relation between a state and the tokens that led to it. -/
theorem Reads.step {state after : State goal} {taken : List Token} {token : Token}
    (reads : ∀ kind, state.Reads kind taken) (fits : state.step? token = some after) :
    ∀ kind, after.Reads kind (taken ++ [token.plain]) :=
  fun _ => (reads token.kind).settle.shift settle_eq_value fits

theorem Reads.reach {state settled : State goal} {taken tokens : List Token}
    (reads : ∀ kind, state.Reads kind taken)
    (reached : state.reach? next tokens = some settled) :
    settled.Reads next (taken ++ tokens.map Token.plain) := by
  induction tokens generalizing state taken with
  | nil =>
    obtain rfl := Option.some.inj reached
    exact (reads next).settle.of_eq (List.append_nil taken).symm
  | cons token rest ih =>
    simp only [reach?] at reached
    split at reached
    · rename_i fits
      exact (ih (Reads.step reads fits) reached).of_eq (by simp)
    · contradiction

theorem start_reads (goal : Goal) : ∀ kind, (start goal).Reads kind [] := by
  cases goal with
  | program => exact fun _ => .statement .emptyProgram
  | expression => exact fun _ => .innerOperand rfl .whole

/-- The tokens that lead to a program are the yield of canonical statements for it. -/
theorem exists_canonical_program {tokens : List Token} {settled : State .program}
    {program : Program}
    (reached : (start .program).reach? next tokens = some settled)
    (result : settled.result? = some program) :
    ∃ trees, Concrete.Stmt.AllCanonical trees ∧
      Concrete.Stmt.eraseAll trees = program ∧
      Concrete.Stmt.allYield trees = tokens.map Token.plain := by
  have reads := Reads.reach (start_reads .program) reached
  rw [List.nil_append] at reads
  generalize tokens.map Token.plain = taken at reads
  cases reads with
  | statement outside =>
    cases outside with
    | program canonicals =>
      obtain rfl := Option.some.inj result
      exact ⟨_, canonicals, rfl, rfl⟩
    | block => contradiction
  | @value tree outer => cases outer <;> contradiction
  | _ => contradiction

theorem exists_canonical_expr {tokens : List Token} {settled : State .expression}
    {expr : Expr} (reached : (start .expression).reach? next tokens = some settled)
    (result : settled.result? = some expr) :
    ∃ tree : Concrete.Expr, tree.Canonical ∧ tree.erase = expr ∧
      tree.yield = tokens.map Token.plain := by
  have reads := Reads.reach (start_reads .expression) reached
  rw [List.nil_append] at reads
  generalize tokens.map Token.plain = taken at reads
  cases reads with
  | @value tree outer taken admits ends outside =>
    cases outside with
    | whole =>
      obtain rfl := Option.some.inj result
      exact ⟨tree, admits.canonical, rfl, rfl⟩
    | _ => contradiction
  | statement outside =>
    cases outside
    contradiction
  | _ => contradiction

end State

end OasisSyntax
