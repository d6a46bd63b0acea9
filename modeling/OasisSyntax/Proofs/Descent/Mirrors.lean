import OasisSyntax.Proofs.Descent.Moves

/-!
# The procedures and the parser

Every procedure does what the parser does: it takes the same tokens, leaves the same
events, and gets stuck at the same token with the same complaint.  The state in which the
parser begins and the one in which it ends hold the context of the procedure, which may
be any; the procedure knows no more of it than the floor of an expression.
-/

namespace OasisSyntax

open Descent Outcome

variable {goal : Goal} {limit within : Nat} {α β : Type} {tokens : List (Spanned Token)}

/-! ## Outcomes -/

structure Point.Halts (point : Point goal) (tokens : List (Spanned Token)) : Prop where
  stuck : ∀ token ∈ tokens.head?, point.state.step? token.node = none
  silent : point.state.ended? (lead tokens) = none

structure Point.Rejects (point : Point goal) (complaint : Token → SyntaxError)
    (tokens : List (Spanned Token)) : Prop extends point.Halts tokens where
  reports : ∀ actual : Token, actual.kind = lead tokens →
    (point.state.settle (lead tokens)).verdict actual = .error (complaint actual)

/-- A token of the kind leads from the point to the exit, and no other one fits. -/
structure Point.Expects (entry : Point goal) (tokens : List (Spanned Token))
    (kind : Kind) (exit : Token → Point goal) : Prop where
  accepts : ∀ token rest, tokens = token :: rest → token.node.kind = kind →
    Leads entry tokens [] (exit token.node) rest
  refuses : lead tokens ≠ kind → entry.Rejects (.missing kind) tokens

namespace Descent.Outcome

/-- The outcome is what the parser comes to from the entry. -/
def Mirrors (outcome : Outcome limit α) (entry : Point goal)
    (tokens : List (Spanned Token)) (exit : α → Point goal) : Prop :=
  match outcome.ending with
  | .done value rest _ => Leads entry tokens outcome.events (exit value) rest
  | .stuck complaint rest =>
    ∃ point : Point goal,
      Leads entry tokens outcome.events point rest ∧ point.Rejects complaint rest

namespace Mirrors

variable {entry middle : Point goal} {exit : α → Point goal} {outcome : Outcome limit α}
  {between rest : List (Spanned Token)}

theorem value {result : α} {fewer : rest.length < limit}
    (leads : Leads entry tokens [] (exit result) rest) :
    (Outcome.value result rest fewer).Mirrors entry tokens exit := leads

theorem stuck {complaint : Token → SyntaxError} (rejects : entry.Rejects complaint tokens) :
    (Outcome.stuck complaint tokens : Outcome limit α).Mirrors entry tokens exit :=
  ⟨entry, .refl entry tokens, rejects⟩

theorem after (move : Leads entry tokens [] middle between)
    (mirrors : outcome.Mirrors middle between exit) : outcome.Mirrors entry tokens exit := by
  obtain ⟨ending, events, turns⟩ := outcome
  cases ending with
  | done value rest fewer => exact move.trans mirrors
  | stuck complaint rest =>
    obtain ⟨point, leads, rejects⟩ := mirrors
    exact ⟨point, move.trans leads, rejects⟩

theorem andThen {last : β → Point goal}
    {next : α → (rest : List (Spanned Token)) → rest.length < limit → Outcome within β}
    (first : outcome.Mirrors entry tokens exit)
    (second : ∀ value rest fewer, outcome.ending = .done value rest fewer →
      (next value rest fewer).Mirrors (exit value) rest last) :
    (outcome.andThen next).Mirrors entry tokens last := by
  obtain ⟨ending, events, turns⟩ := outcome
  cases ending with
  | stuck complaint rest => exact first
  | done value rest fewer =>
    have later := second value rest fewer rfl
    simp only [Mirrors, Outcome.andThen] at later ⊢
    generalize next value rest fewer = outcome at later
    obtain ⟨ending, more, turns⟩ := outcome
    cases ending with
    | done value rest fewer => exact Leads.trans first later
    | stuck complaint rest =>
      obtain ⟨point, leads, rejects⟩ := later
      exact ⟨point, Leads.trans first leads, rejects⟩

theorem upTo {larger : limit ≤ within} (mirrors : outcome.Mirrors entry tokens exit) :
    (outcome.upTo larger).Mirrors entry tokens exit :=
  mirrors.andThen fun _ _ _ _ => value (.refl ..)

theorem turn {number : Nat} (mirrors : outcome.Mirrors entry tokens exit) :
    (outcome.turn number).Mirrors entry tokens exit := mirrors

end Mirrors

def Ensures (outcome : Outcome limit α) (holds : α → List (Spanned Token) → Prop) : Prop :=
  ∀ value rest fewer, outcome.ending = .done value rest fewer → holds value rest

namespace Ensures

variable {outcome : Outcome limit α} {holds : α → List (Spanned Token) → Prop}
  {rest : List (Spanned Token)}

theorem value {result : α} {fewer : rest.length < limit} (held : holds result rest) :
    (Outcome.value result rest fewer).Ensures holds := by
  intro value rest fewer done
  cases done
  exact held

theorem andThen {holds : β → List (Spanned Token) → Prop}
    {next : α → (rest : List (Spanned Token)) → rest.length < limit → Outcome within β}
    (second : ∀ value rest fewer, outcome.ending = .done value rest fewer →
      (next value rest fewer).Ensures holds) :
    (outcome.andThen next).Ensures holds := by
  obtain ⟨ending, events, turns⟩ := outcome
  cases ending with
  | stuck complaint rest =>
    intro value rest fewer done
    contradiction
  | done value rest fewer => exact second value rest fewer rfl

theorem upTo {larger : limit ≤ within} (ensures : outcome.Ensures holds) :
    (outcome.upTo larger).Ensures holds :=
  andThen fun result rest fewer done => value (ensures result rest fewer done)

end Ensures

end Descent.Outcome

/-! ## Single tokens -/

namespace State

structure Awaits (next : Kind) (state : State goal) (kind : Kind)
    (after : Token → State goal) : Prop where
  settled : state.settle next = state
  running : state.ended? next = none
  inside : state.beginsStmt next = false
  takes : ∀ token : Token, token.kind = next →
    state.shift? token = onKind kind token (after token)
  unfinished : state.result? = none
  complains : ∀ actual, state.complaint actual = .missing kind actual

theorem Awaits.expects {state : State goal} {kind : Kind} {after : Token → State goal}
    (awaits : Awaits (lead tokens) state kind after) (opened : List Nat) :
    Point.Expects ⟨state, opened⟩ tokens kind fun token => ⟨after token, opened⟩ where
  accepts := by
    rintro token rest rfl fits
    refine Leads.take ?_ awaits.running awaits.inside opened rest
    have settled : state.settle token.node.kind = state := awaits.settled
    rw [step?, settled, awaits.takes token.node rfl, onKind, if_pos fits]
  refuses := by
    intro other
    refine ⟨⟨fun token first => ?_, awaits.running⟩, fun actual same => ?_⟩
    · cases tokens with
      | nil => contradiction
      | cons head rest =>
        obtain rfl := Option.some.inj first
        have settled : state.settle head.node.kind = state := awaits.settled
        rw [step?, settled, awaits.takes head.node rfl, onKind]
        exact if_neg other
    · rw [verdict, awaits.settled, awaits.unfinished, awaits.complains]

end State

theorem Descent.expect_mirrors {entry : Point goal} {kind : Kind}
    {exit : Token → Point goal} (expects : entry.Expects tokens kind exit)
    (more : kind ≠ .eof) : (expect kind tokens).Mirrors entry tokens exit := by
  cases tokens with
  | nil => exact .stuck (expects.refuses (Ne.symm more))
  | cons token rest =>
    rw [expect]
    split
    · rename_i fits
      exact .value (expects.accepts token rest rfl fits)
    · rename_i other
      exact .stuck (expects.refuses other)

end OasisSyntax
