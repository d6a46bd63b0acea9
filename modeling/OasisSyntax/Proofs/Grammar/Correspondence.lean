import OasisSyntax.Proofs.Grammar.Grouping

/-!
# Derivations and canonical trees

The tree of a legal derivation is canonical, and every canonical tree is the tree of a
legal derivation.  For the second part the operators of a tree are put in a row again;
none of them is weaker than the one at the top of the tree, so that grouping the row
finds them in their places.
-/

namespace OasisSyntax

theorem Concrete.Expr.not_isBinary_of_not_isOperation {tree : Concrete.Expr}
    (primary : ¬ tree.isOperation) : ¬ tree.isBinary := by
  intro binary
  cases tree with
  | binary => exact primary rfl
  | _ => contradiction

theorem Derivation.startsCompound_yield {tree : Concrete.Expr}
    (canonical : tree.Canonical) :
    Derivation.startsCompound tree.yield = tree.startsCompound := by
  obtain ⟨literal, tail, same⟩ := tree.yield_eq
  rw [same, tree.startsCompound_eq canonical]
  simp [startsCompound]

/-! ## Trees of derivations -/

namespace Derivation

mutual

theorem Expr.tree_canonical (expr : Expr) (legal : expr.Legal) :
    expr.tree.Canonical := by
  cases expr with
  | row first more =>
    exact Operation.attachAll_canonical more legal.2 first.tree
      (first.tree_canonical legal.1).1
termination_by structural expr

theorem Operation.attachAll_canonical (more : List Operation)
    (legal : Operation.AllLegal more) (tree : Concrete.Expr)
    (canonical : tree.Canonical) : (Operation.attachAll tree more).Canonical := by
  cases more with
  | nil => exact canonical
  | cons operation rest =>
    cases operation with
    | mk op operand =>
      obtain ⟨⟨binary, legal⟩, legals⟩ := legal
      obtain ⟨canonical', noBinary⟩ := operand.tree_canonical legal
      exact Operation.attachAll_canonical rest legals _
        (tree.attach_canonical canonical binary canonical' noBinary)
termination_by structural more

theorem Unary.tree_canonical (unary : Unary) (legal : unary.Legal) :
    unary.tree.Canonical ∧ ¬ unary.tree.isBinary := by
  cases unary with
  | prefixed op operand =>
    obtain ⟨canonical, noBinary⟩ := operand.tree_canonical legal.2
    exact ⟨⟨legal.1, noBinary, canonical⟩, nofun⟩
  | applied callee calls =>
    obtain ⟨canonical, primary⟩ := callee.tree_canonical legal.1
    obtain ⟨canonical', primary'⟩ :=
      Args.callAll_canonical calls legal.2 callee.tree canonical primary
    exact ⟨canonical', Concrete.Expr.not_isBinary_of_not_isOperation primary'⟩
termination_by structural unary

theorem Args.callAll_canonical (calls : List Args) (legal : Args.AllLegal calls)
    (callee : Concrete.Expr) (canonical : callee.Canonical)
    (primary : ¬ callee.isOperation) :
    (Args.callAll callee calls).Canonical ∧
      ¬ (Args.callAll callee calls).isOperation := by
  cases calls with
  | nil => exact ⟨canonical, primary⟩
  | cons args rest =>
    cases args with
    | none =>
      exact Args.callAll_canonical rest legal.2 _ ⟨primary, nofun, canonical, trivial⟩
        nofun
    | listed first more trailing =>
      obtain ⟨⟨legal, legals⟩, later⟩ := legal
      exact Args.callAll_canonical rest later _
        ⟨primary, fun _ => nofun, canonical, first.tree_canonical legal,
          Expr.treeAll_canonical more legals⟩ nofun
termination_by structural calls

theorem Primary.tree_canonical (primary : Primary) (legal : primary.Legal) :
    primary.tree.Canonical ∧ ¬ primary.tree.isOperation := by
  cases primary with
  | ident | int => exact ⟨trivial, nofun⟩
  | group inner => exact ⟨inner.tree_canonical legal, nofun⟩
  | compound form => exact ⟨form.tree_canonical legal, nofun⟩
  | func params body => exact ⟨⟨params.comma, Stmt.treeAll_canonical body legal⟩, nofun⟩
termination_by structural primary

theorem Compound.tree_canonical (form : Compound) (legal : form.Legal) :
    form.tree.Canonical := by
  cases form with
  | block body => exact Stmt.treeAll_canonical body legal
  | conditional branches => exact branches.tree_canonical legal
  | loop condition body =>
    exact ⟨condition.tree_canonical legal.1, Stmt.treeAll_canonical body legal.2⟩
termination_by structural form

theorem Conditional.tree_canonical (branches : Conditional) (legal : branches.Legal) :
    branches.tree.Canonical := by
  cases branches with
  | only condition body =>
    exact ⟨condition.tree_canonical legal.1, Stmt.treeAll_canonical body legal.2⟩
  | orElse condition body other =>
    exact ⟨condition.tree_canonical legal.1, Stmt.treeAll_canonical body legal.2.1,
      Stmt.treeAll_canonical other legal.2.2⟩
  | elseIf condition body next =>
    exact ⟨condition.tree_canonical legal.1, Stmt.treeAll_canonical body legal.2.1,
      next.tree_canonical legal.2.2⟩
termination_by structural branches

theorem Stmt.tree_canonical (stmt : Stmt) (legal : stmt.Legal) :
    stmt.tree.Canonical := by
  cases stmt with
  | expr value =>
    have canonical := value.tree_canonical legal.2
    have plain := startsCompound_yield canonical
    rw [value.tree_yield] at plain
    exact ⟨plain ▸ legal.1, canonical⟩
  | binding name value => exact value.tree_canonical legal
  | jump word value =>
    cases value with
    | none => trivial
    | some value => exact value.tree_canonical legal
  | continueLoop => trivial
  | compound form terminated => exact form.tree_canonical legal
  | funcDecl name params body terminated =>
    exact ⟨params.comma, Stmt.treeAll_canonical body legal⟩
termination_by structural stmt

theorem Expr.treeAll_canonical (more : List Expr) (legal : Expr.AllLegal more) :
    Concrete.Expr.AllCanonical (Expr.treeAll more) := by
  cases more with
  | nil => trivial
  | cons value rest =>
    exact ⟨value.tree_canonical legal.1, Expr.treeAll_canonical rest legal.2⟩
termination_by structural more

theorem Stmt.treeAll_canonical (body : List Stmt) (legal : Stmt.AllLegal body) :
    Concrete.Stmt.AllCanonical (Stmt.treeAll body) := by
  cases body with
  | nil => trivial
  | cons stmt rest =>
    exact ⟨stmt.tree_canonical legal.1, Stmt.treeAll_canonical rest legal.2⟩
termination_by structural body

end

/-! ## Derivations of trees -/

structure Groups (tree : Concrete.Expr) (first : Unary) (more : List Operation) :
    Prop where
  legal : (Expr.row first more).Legal
  grouped : (Expr.row first more).tree = tree
  above : ∀ operation ∈ more, ¬ operation.op.precedence < tree.level
  single : ¬ tree.isBinary → more = []
  applied : ¬ tree.isOperation → ∃ callee calls, first = .applied callee calls

theorem Groups.of_primary {tree : Concrete.Expr} {callee : Primary} {calls : List Args}
    (legal : (Unary.applied callee calls).Legal)
    (grouped : (Unary.applied callee calls).tree = tree) :
    Groups tree (.applied callee calls) [] where
  legal := ⟨legal, trivial⟩
  grouped := grouped
  above := nofun
  single := fun _ => rfl
  applied := fun _ => ⟨callee, calls, rfl⟩

private theorem Operation.attachAll_append (first second : List Operation)
    (tree : Concrete.Expr) :
    attachAll tree (first ++ second) = attachAll (attachAll tree first) second := by
  induction first generalizing tree with
  | nil => rfl
  | cons operation rest ih =>
    cases operation
    exact ih _

private theorem Args.callAll_snoc (calls : List Args) (args : Args) (callee : Concrete.Expr) :
    callAll callee (calls ++ [args]) = callAll (callAll callee calls) [args] := by
  induction calls generalizing callee with
  | nil => rfl
  | cons other rest ih => cases other <;> exact ih _

theorem exists_of_groups {tree : Concrete.Expr}
    (groups : ∃ first more, Groups tree first more) :
    ∃ derivation : Expr, derivation.Legal ∧ derivation.tree = tree := by
  obtain ⟨first, more, groups⟩ := groups
  exact ⟨.row first more, groups.legal, groups.grouped⟩

theorem Groups.binary {left right : Concrete.Expr} {op : Kind} {first operand : Unary}
    {before behind : List Operation} (groupsLeft : Groups left first before)
    (groupsRight : Groups right operand behind)
    (canonical : (Concrete.Expr.binary left op right).Canonical) :
    Groups (.binary left op right) first (before ++ .mk op operand :: behind) := by
  obtain ⟨binary, fitsLeft, fitsRight, -, canonicalRight⟩ := canonical
  have legal : Operation.AllLegal (.mk op operand :: behind) :=
    ⟨⟨binary, groupsRight.legal.1⟩, groupsRight.legal.2⟩
  have stronger : ∀ operation ∈ behind,
      op.rightFloor < operation.op.precedence := by
    intro operation member
    have floor := Concrete.level_of_fitsRightOf binary canonicalRight fitsRight
    have above := groupsRight.above operation member
    simp only [Precedence.lt_iff] at *
    omega
  refine ⟨⟨groupsLeft.legal.1, Operation.allLegal_append groupsLeft.legal.2 legal⟩, ?_,
    ?_, fun noBinary => absurd rfl noBinary, fun primary => absurd rfl primary⟩
  · calc (Expr.row first (before ++ .mk op operand :: behind)).tree
      _ = Operation.attachAll (Operation.attachAll first.tree before)
          (.mk op operand :: behind) :=
        Operation.attachAll_append before _ first.tree
      _ = Operation.attachAll (left.attach op operand.tree) behind :=
        congrArg (fun tree => Operation.attachAll tree (.mk op operand :: behind))
          groupsLeft.grouped
      _ = Operation.attachAll (.binary left op operand.tree) behind := by
        rw [Concrete.Expr.attach_of_fitsLeftOf binary fitsLeft]
      _ = .binary left op (Operation.attachAll operand.tree behind) :=
        Operation.attachAll_binary stronger left operand.tree
      _ = .binary left op right := congrArg _ groupsRight.grouped
  · intro operation member
    rw [List.mem_append, List.mem_cons] at member
    rcases member with earlier | rfl | later
    -- Only a binary left operand has operators in its row, and it fits to the left.
    · have above := groupsLeft.above operation earlier
      cases left with
      | binary _ inner _ =>
        have notBelow := fitsLeft.2
        simp only [Concrete.Expr.level, Precedence.lt_iff] at *
        omega
      | _ =>
        rw [groupsLeft.single Bool.false_ne_true] at earlier
        contradiction
    · exact Nat.lt_irrefl _
    · have binary' := Operation.isBinary_of_mem legal.2 operation later
      have range := Kind.level_of_isBinary binary'
      rcases (Kind.rightFloor_lt_iff binary').1 (stronger operation later) with
        right | below
      · have lowest := Kind.level_of_groupsRight right
        simp only [Concrete.Expr.level, Precedence.lt_iff]
        omega
      · exact Nat.lt_asymm below

theorem Args.exists_of_comma {values : List Expr} (legals : Expr.AllLegal values)
    {args : List Concrete.Expr} (trees : Expr.treeAll values = args) {trailing : Bool}
    (comma : trailing → args ≠ []) :
    ∃ list : Args, list.Legal ∧
      ∀ callee, callAll callee [list] = .call callee args trailing := by
  subst trees
  cases values with
  | nil =>
    cases trailing with
    | false => exact ⟨.none, trivial, fun _ => rfl⟩
    | true => exact absurd rfl (comma rfl)
  | cons first more => exact ⟨.listed first more trailing, legals, fun _ => rfl⟩

end Derivation

open OasisSyntax.Derivation (Groups)

namespace Concrete

mutual

theorem Expr.exists_groups (tree : Expr) (canonical : tree.Canonical) :
    ∃ first more, Groups tree first more := by
  cases tree with
  | ident name =>
    exact ⟨.applied (.ident name) [], [], .of_primary ⟨trivial, trivial⟩ rfl⟩
  | int digits =>
    exact ⟨.applied (.int digits) [], [], .of_primary ⟨trivial, trivial⟩ rfl⟩
  | unary op operand =>
    obtain ⟨unary, noBinary, canonical⟩ := canonical
    obtain ⟨first, more, groups⟩ := operand.exists_groups canonical
    obtain rfl := groups.single noBinary
    have grouped : first.tree = operand := groups.grouped
    refine ⟨.prefixed op first, [], ⟨⟨unary, groups.legal.1⟩, trivial⟩, ?_, nofun,
      fun _ => rfl, fun primary => absurd rfl primary⟩
    exact congrArg (Expr.unary op) grouped
  | binary left op right =>
    obtain ⟨first, before, groups⟩ := left.exists_groups canonical.2.2.2.1
    obtain ⟨operand, behind, groups'⟩ := right.exists_groups canonical.2.2.2.2
    exact ⟨first, _, groups.binary groups' canonical⟩
  | group inner =>
    obtain ⟨first, more, groups⟩ := inner.exists_groups canonical
    exact ⟨.applied (.group (.row first more)) [], [],
      .of_primary ⟨groups.legal, trivial⟩ (congrArg Expr.group groups.grouped)⟩
  | call callee args trailing =>
    obtain ⟨primary, comma, canonical, canonicals⟩ := canonical
    obtain ⟨first, more, groups⟩ := callee.exists_groups canonical
    obtain rfl := groups.single (Expr.not_isBinary_of_not_isOperation primary)
    obtain ⟨head, calls, rfl⟩ := groups.applied primary
    obtain ⟨values, legals, trees⟩ := Expr.exists_derivations args canonicals
    obtain ⟨list, legal, called⟩ := Derivation.Args.exists_of_comma legals trees comma
    have grouped : Derivation.Args.callAll head.tree calls = callee := groups.grouped
    refine ⟨.applied head (calls ++ [list]), [], .of_primary
      ⟨groups.legal.1.1, Derivation.Args.allLegal_snoc groups.legal.1.2 legal⟩ ?_⟩
    calc Derivation.Args.callAll head.tree (calls ++ [list])
      _ = Derivation.Args.callAll (Derivation.Args.callAll head.tree calls) [list] :=
        Derivation.Args.callAll_snoc calls list head.tree
      _ = .call callee args trailing := by rw [grouped, called]
  | compound form =>
    obtain ⟨derivation, legal, rfl⟩ := form.exists_derivation canonical
    exact ⟨.applied (.compound derivation) [], [], .of_primary ⟨legal, trivial⟩ rfl⟩
  | func params trailing body =>
    obtain ⟨names, rfl, rfl⟩ := Derivation.Names.exists_of_comma canonical.1
    obtain ⟨stmts, legal, rfl⟩ := Stmt.exists_derivations body canonical.2
    exact ⟨.applied (.func names stmts) [], [], .of_primary ⟨legal, trivial⟩ rfl⟩
termination_by structural tree

theorem Compound.exists_derivation (form : Compound) (canonical : form.Canonical) :
    ∃ derivation : Derivation.Compound, derivation.Legal ∧ derivation.tree = form := by
  cases form with
  | block body =>
    obtain ⟨stmts, legals, rfl⟩ := Stmt.exists_derivations body canonical
    exact ⟨.block stmts, legals, rfl⟩
  | conditional branches =>
    obtain ⟨derivation, legal, rfl⟩ := branches.exists_derivation canonical
    exact ⟨.conditional derivation, legal, rfl⟩
  | loop condition body =>
    obtain ⟨derivation, legal, rfl⟩ :=
      Derivation.exists_of_groups (condition.exists_groups canonical.1)
    obtain ⟨stmts, legals, rfl⟩ := Stmt.exists_derivations body canonical.2
    exact ⟨.loop derivation stmts, ⟨legal, legals⟩, rfl⟩
termination_by structural form

theorem Conditional.exists_derivation (branches : Conditional)
    (canonical : branches.Canonical) :
    ∃ derivation : Derivation.Conditional,
      derivation.Legal ∧ derivation.tree = branches := by
  cases branches with
  | only condition body =>
    obtain ⟨derivation, legal, rfl⟩ :=
      Derivation.exists_of_groups (condition.exists_groups canonical.1)
    obtain ⟨stmts, legals, rfl⟩ := Stmt.exists_derivations body canonical.2
    exact ⟨.only derivation stmts, ⟨legal, legals⟩, rfl⟩
  | orElse condition body other =>
    obtain ⟨derivation, legal, rfl⟩ :=
      Derivation.exists_of_groups (condition.exists_groups canonical.1)
    obtain ⟨stmts, legals, rfl⟩ := Stmt.exists_derivations body canonical.2.1
    obtain ⟨others, legals', rfl⟩ := Stmt.exists_derivations other canonical.2.2
    exact ⟨.orElse derivation stmts others, ⟨legal, legals, legals'⟩, rfl⟩
  | elseIf condition body next =>
    obtain ⟨derivation, legal, rfl⟩ :=
      Derivation.exists_of_groups (condition.exists_groups canonical.1)
    obtain ⟨stmts, legals, rfl⟩ := Stmt.exists_derivations body canonical.2.1
    obtain ⟨following, legal', rfl⟩ := next.exists_derivation canonical.2.2
    exact ⟨.elseIf derivation stmts following, ⟨legal, legals, legal'⟩, rfl⟩
termination_by structural branches

theorem Stmt.exists_derivation (stmt : Stmt) (canonical : stmt.Canonical) :
    ∃ derivation : Derivation.Stmt, derivation.Legal ∧ derivation.tree = stmt := by
  cases stmt with
  | expr value =>
    obtain ⟨plain, canonical⟩ := canonical
    obtain ⟨derivation, legal, rfl⟩ :=
      Derivation.exists_of_groups (value.exists_groups canonical)
    rw [← Derivation.startsCompound_yield canonical, derivation.tree_yield] at plain
    exact ⟨.expr derivation, ⟨plain, legal⟩, rfl⟩
  | binding name value =>
    obtain ⟨derivation, legal, rfl⟩ :=
      Derivation.exists_of_groups (value.exists_groups canonical)
    exact ⟨.binding name derivation, legal, rfl⟩
  | jump word value =>
    cases value with
    | none => exact ⟨.jump word none, trivial, rfl⟩
    | some value =>
      obtain ⟨derivation, legal, rfl⟩ :=
        Derivation.exists_of_groups (value.exists_groups canonical)
      exact ⟨.jump word (some derivation), legal, rfl⟩
  | continueLoop => exact ⟨.continueLoop, trivial, rfl⟩
  | compound form terminated =>
    obtain ⟨derivation, legal, rfl⟩ := form.exists_derivation canonical
    exact ⟨.compound derivation terminated, legal, rfl⟩
  | funcDecl name params trailing body terminated =>
    obtain ⟨names, rfl, rfl⟩ := Derivation.Names.exists_of_comma canonical.1
    obtain ⟨stmts, legals, rfl⟩ := Stmt.exists_derivations body canonical.2
    exact ⟨.funcDecl name names stmts terminated, legals, rfl⟩
termination_by structural stmt

theorem Expr.exists_derivations (args : List Expr)
    (canonical : Expr.AllCanonical args) :
    ∃ derivations, Derivation.Expr.AllLegal derivations ∧
      Derivation.Expr.treeAll derivations = args := by
  cases args with
  | nil => exact ⟨[], trivial, rfl⟩
  | cons value rest =>
    obtain ⟨derivation, legal, rfl⟩ :=
      Derivation.exists_of_groups (value.exists_groups canonical.1)
    obtain ⟨derivations, legals, rfl⟩ := Expr.exists_derivations rest canonical.2
    exact ⟨derivation :: derivations, ⟨legal, legals⟩, rfl⟩
termination_by structural args

theorem Stmt.exists_derivations (body : List Stmt)
    (canonical : Stmt.AllCanonical body) :
    ∃ derivations, Derivation.Stmt.AllLegal derivations ∧
      Derivation.Stmt.treeAll derivations = body := by
  cases body with
  | nil => exact ⟨[], trivial, rfl⟩
  | cons stmt rest =>
    obtain ⟨derivation, legal, rfl⟩ := stmt.exists_derivation canonical.1
    obtain ⟨derivations, legals, rfl⟩ := Stmt.exists_derivations rest canonical.2
    exact ⟨derivation :: derivations, ⟨legal, legals⟩, rfl⟩
termination_by structural body

end

end Concrete

end OasisSyntax
