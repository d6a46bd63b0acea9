import OasisSyntax.Proofs.Grammar.Unambiguous
import OasisSyntax.Proofs.Parsing.Sound

/-!
# Reading an expression

The tokens that an expression is read from are the yield of a canonical tree for it, and
of no other canonical tree: precedence and associativity leave no choice.  In turn every
canonical tree is read from its yield, if neither an operator nor an alternative comes
next.
-/

namespace OasisSyntax

open State

private theorem Session.exists_canonical {session after : Session} {expr : Expr}
    (read : session.read .expression = (.ok expr, after)) :
    ∃ taken : List (Spanned Token),
      session.stream.upcoming = taken ++ after.stream.upcoming ∧
      after.taken = session.taken + taken.length ∧
      ∃ tree : Concrete.Expr, tree.Canonical ∧ tree.erase = expr ∧
        tree.yield = taken.map (·.node.plain) := by
  obtain ⟨taken, rest, settled, split, stops⟩ :=
    exists_stops session.stream.final (State.start .expression) session.stream.upcoming
  rw [Session.read_of_stops split stops, Prod.mk.injEq] at read
  obtain ⟨said, rfl⟩ := read
  obtain ⟨tree, canonical, erases, yields⟩ :=
    exists_canonical_expr stops.reached (judgement_eq_ok said)
  exact ⟨taken, split, rfl, tree, canonical, erases, by rw [yields, List.map_map]; rfl⟩

private theorem State.settle_whole {next : Kind} (weak : next.isWeak) (expr : Expr) :
    (State.value expr .whole).settle next = .value expr .whole := by
  have none : next.precedence = .none := by simpa [Kind.isWeak] using weak
  have weaker : ¬ ExprContext.whole.floor < next.precedence :=
    none ▸ Precedence.none_le _
  simp only [settle, finishForm, finishExpr, ExprContext.finish, Kind.goesOn_iff, weaker,
    if_false, finishStmt, openForm]

private theorem State.shiftValue?_of_isWeak {goal : Goal} {next : Kind} (weak : next.isWeak)
    (expr : Expr) (outer : ExprContext goal) : shiftValue? expr outer next = none := by
  revert weak
  cases next <;> first | exact fun _ => rfl | exact nofun

theorem Concrete.Expr.read (tree : Concrete.Expr) (canonical : tree.Canonical)
    {session : Session} {taken rest : List (Spanned Token)}
    (split : session.stream.upcoming = taken ++ rest)
    (yields : tree.yield = taken.map (·.node.plain))
    (weak : (rest.headD session.stream.final).node.kind.isWeak)
    (noElse : (rest.headD session.stream.final).node.kind ≠ .kwElse) :
    session.read .expression =
      (.ok tree.erase,
        ⟨⟨rest, session.stream.final⟩, session.taken + taken.length⟩) := by
  generalize kind : (rest.headD session.stream.final).node.kind = next at weak noElse
  have reached : (State.start .expression).reach? next (taken.map (·.node)) =
      some (.value tree.erase .whole) := by
    have ends : tree.EndsBefore next := tree.endsBefore_of_weak weak noElse
    have read := tree.reach canonical .whole (none_lt_level canonical) [] ends
    rw [List.append_nil, reach?_nil, settle_whole weak, yields] at read
    rw [← reach?_plain, List.map_map]
    exact read
  have stops : (State.start .expression).Stops session.stream.final taken rest
      (.value tree.erase .whole) := by
    refine ⟨kind ▸ reached, ?_⟩
    intro token head
    have first : rest.headD session.stream.final = token := by
      cases rest with
      | nil => cases head
      | cons other rest => exact Option.some.inj head
    rw [first] at kind
    exact shiftValue?_of_isWeak (kind ▸ weak) tree.erase .whole
  rw [Session.read_of_stops split stops, judgement_of_result rfl]

/-- Reading an expression takes the tokens of one canonical tree and gives what is in
it, and every canonical tree can be read in this way. -/
theorem Session.read_expression (session : Session) :
    (∀ expr after, session.read .expression = (.ok expr, after) →
      ∃ taken : List (Spanned Token),
        session.stream.upcoming = taken ++ after.stream.upcoming ∧
        after.taken = session.taken + taken.length ∧
        ∃ tree : Concrete.Expr, tree.erase = expr ∧
          ∀ other : Concrete.Expr,
            other.Canonical ∧ other.yield = taken.map (·.node.plain) ↔ other = tree) ∧
    (∀ (tree : Concrete.Expr) (taken rest : List (Spanned Token)), tree.Canonical →
      session.stream.upcoming = taken ++ rest →
      tree.yield = taken.map (·.node.plain) →
      (rest.headD session.stream.final).node.kind.isWeak →
      (rest.headD session.stream.final).node.kind ≠ .kwElse →
      session.read .expression =
        (.ok tree.erase,
          ⟨⟨rest, session.stream.final⟩, session.taken + taken.length⟩)) := by
  constructor
  · intro expr after read
    obtain ⟨taken, split, count, tree, canonical, erases, yields⟩ :=
      exists_canonical read
    refine ⟨taken, split, count, tree, erases, fun other => ⟨?_, ?_⟩⟩
    · rintro ⟨canonical', yields'⟩
      exact Concrete.Expr.yield_injective canonical' canonical
        (yields'.trans yields.symm)
    · rintro rfl
      exact ⟨canonical, yields⟩
  · intro tree taken rest canonical split yields weak noElse
    exact tree.read canonical split yields weak noElse

/-- The sum is assigned to, although assignment groups to the right. -/
theorem Session.read_expression_assigned_sum :
    let tokens : List (Spanned Token) :=
      [⟨.ident, "a"⟩, .ofKind .plus, ⟨.ident, "b"⟩, .ofKind .assign, ⟨.ident, "c"⟩].map
        fun token => ⟨⟨0, 0⟩, token⟩
    let tree : Concrete.Expr :=
      .binary (.binary (.ident "a") .plus (.ident "b")) .assign (.ident "c")
    let session := Session.start (.ofTokens tokens 0)
    (session.read .expression).1 = .ok tree.erase ∧
      ∀ other : Concrete.Expr,
        other.Canonical → other.yield = tokens.map (·.node.plain) → other = tree := by
  intro tokens tree session
  have canonical : tree.Canonical := by
    refine ⟨rfl, ⟨?_, ?_⟩, trivial, ⟨rfl, trivial, trivial, trivial, trivial⟩, trivial⟩ <;>
      decide
  have read :=
    session.read_expression.2 tree tokens [] canonical rfl rfl rfl (by decide)
  refine ⟨congrArg Prod.fst read, fun other canonical' yields => ?_⟩
  obtain ⟨taken, split, -, only, -, unique⟩ := session.read_expression.1 _ _ read
  obtain rfl : tokens = taken := split.trans (List.append_nil taken)
  rw [(unique other).1 ⟨canonical', yields⟩, (unique tree).1 ⟨canonical, rfl⟩]

end OasisSyntax
