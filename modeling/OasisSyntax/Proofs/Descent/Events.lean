import OasisSyntax.Proofs.Descent.PostOrder
import OasisSyntax.Proofs.Grammar.Lead
import Mathlib.Data.List.Infix

/-!
# Events on the way

What a procedure leaves is a log in which every event is that of a statement, directly
behind the events of the statements inside of it.  This holds for every part of the way,
also if reading gets stuck behind it.  When a procedure succeeds, its events are those of
a walk over the tree that it has read.
-/

namespace OasisSyntax

open Descent (lead start)

variable {limit within skip : Nat} {α β : Type}
  {tokens between rest : List (Spanned Token)} {events later : List StatementEvent}

/-- The event is that of a statement with these tokens in front of the rest.  Every
statement inside of it begins behind its first token. -/
structure Concrete.Stmt.Leaves (tree : Concrete.Stmt)
    (tokens rest : List (Spanned Token)) (event : StatementEvent) : Prop where
  canonical : tree.Canonical
  spells : Spells tree.yield tokens rest
  tells : event = ⟨start tokens, tree.erase⟩
  inside : ∀ inner ∈ tree.nested tokens, ∃ token ∈ tokens.tail,
    inner.start = token.span.start

/-- All events are those of statements in front of the rest, behind so many tokens at
least, and stand directly behind the events of the statements inside of them. -/
structure Logged (skip : Nat) (tokens rest : List (Spanned Token))
    (events : List StatementEvent) : Prop where
  takes : rest <:+ tokens
  each : ∀ before event after, events = before ++ event :: after →
    ∃ earlier tree own next, own <:+ tokens.drop skip ∧ rest <:+ next ∧
      Concrete.Stmt.Leaves tree own next event ∧ before = earlier ++ tree.nested own

namespace Logged

theorem silent (takes : rest <:+ tokens) : Logged skip tokens rest [] := by
  refine ⟨takes, fun before event after split => ?_⟩
  simp at split

private theorem drop_isSuffix (takes : between <:+ tokens) (skip : Nat) :
    between.drop skip <:+ tokens.drop skip := by
  obtain ⟨front, rfl⟩ := takes
  rw [List.drop_append]
  exact (List.drop_suffix_drop_left between (Nat.sub_le skip front.length)).trans
    (List.suffix_append _ _)

theorem append {other : Nat} (first : Logged skip tokens between events)
    (second : Logged other between rest later)
    (place : between.drop other <:+ tokens.drop skip) :
    Logged skip tokens rest (events ++ later) := by
  refine ⟨second.takes.trans first.takes, fun before event after split => ?_⟩
  rcases List.append_eq_append_iff.1 split with ⟨more, rfl, last⟩ | ⟨more, rfl, last⟩
  · obtain ⟨earlier, tree, own, next, inside, front, leaves, rfl⟩ :=
      second.each more event after last
    exact ⟨events ++ earlier, tree, own, next, inside.trans place, front, leaves,
      (List.append_assoc ..).symm⟩
  · cases more with
    | nil =>
      obtain ⟨earlier, tree, own, next, inside, front, leaves, nothing⟩ :=
        second.each [] event after last.symm
      obtain ⟨rfl, none⟩ := List.append_eq_nil_iff.1 nothing.symm
      refine ⟨before, tree, own, next, inside.trans place, front, leaves, ?_⟩
      rw [none, List.append_nil]
    | cons same more =>
      obtain ⟨rfl, rfl⟩ := List.cons.inj last
      obtain ⟨earlier, tree, own, next, inside, front, leaves, rfl⟩ :=
        first.each before event more rfl
      exact ⟨earlier, tree, own, next, inside, second.takes.trans front, leaves, rfl⟩

theorem widen {wider : List (Spanned Token)} {fewer : Nat}
    (logged : Logged skip between rest events)
    (takes : between <:+ tokens) (inside : between.drop skip <:+ tokens.drop fewer)
    (shorter : wider <:+ rest) : Logged fewer tokens wider events := by
  refine ⟨shorter.trans (logged.takes.trans takes), fun before event after split => ?_⟩
  obtain ⟨earlier, tree, own, next, place, front, leaves, same⟩ :=
    logged.each before event after split
  exact ⟨earlier, tree, own, next, place.trans inside, shorter.trans front, leaves, same⟩

theorem end_statement {tree : Concrete.Stmt} (inside : Logged 1 tokens between events)
    (canonical : tree.Canonical) (spells : Spells tree.yield tokens rest)
    (nested : tree.nested tokens = events) (takes : rest <:+ between) :
    Logged 0 tokens rest (events ++ [⟨start tokens, tree.erase⟩]) := by
  have leaves : tree.Leaves tokens rest ⟨start tokens, tree.erase⟩ := by
    refine ⟨canonical, spells, rfl, fun inner member => ?_⟩
    rw [nested] at member
    obtain ⟨before, after, split⟩ := List.append_of_mem member
    obtain ⟨-, inner, own, next, place, -, leaves, -⟩ := inside.each _ _ _ split
    obtain ⟨literal, tail, begins⟩ := inner.yield_eq
    obtain ⟨first, more, rfl, -⟩ := (begins ▸ leaves.spells).exists_cons
    rw [List.drop_one] at place
    exact ⟨first, place.subset (.head _), by rw [leaves.tells]; rfl⟩
  refine ⟨takes.trans inside.takes, fun before event after split => ?_⟩
  rcases List.eq_nil_or_concat after with rfl | ⟨after, last, rfl⟩
  · obtain ⟨rfl, last⟩ := List.append_inj' split rfl
    obtain rfl := List.singleton_inj.1 last
    exact ⟨[], tree, tokens, rest, List.suffix_rfl, List.suffix_rfl, leaves, nested.symm⟩
  · rw [List.concat_eq_append, ← List.cons_append, ← List.append_assoc] at split
    obtain ⟨rfl, -⟩ := List.append_inj' split rfl
    obtain ⟨earlier, tree, own, next, place, front, leaves, same⟩ :=
      inside.each before event after rfl
    exact ⟨earlier, tree, own, next, place.trans (List.drop_suffix 1 tokens),
      takes.trans front, leaves, same⟩

end Logged

/-! ## Outcomes -/

namespace Descent.Outcome

/-- The outcome leaves a log, and a value that comes out is shown by the tokens that are
left and by the events. -/
structure Shows (outcome : Outcome limit α) (skip : Nat) (tokens : List (Spanned Token))
    (shown : α → List (Spanned Token) → List StatementEvent → Prop) : Prop where
  logged : Logged skip tokens outcome.rest outcome.events
  done : ∀ value rest fewer, outcome.ending = .done value rest fewer →
    shown value rest outcome.events

namespace Shows

variable {outcome : Outcome limit α}
  {shown : α → List (Spanned Token) → List StatementEvent → Prop}

theorem value {result : α} {fewer : rest.length < limit} (held : shown result rest []) :
    (Outcome.value result rest fewer).Shows skip rest shown := by
  refine ⟨.silent List.suffix_rfl, fun value rest fewer same => ?_⟩
  cases same
  exact held

theorem of_stuck {complaint : Token → SyntaxError} {turns : Nat}
    (logged : Logged skip tokens rest events) :
    (⟨.stuck complaint rest, events, turns⟩ : Outcome limit α).Shows skip tokens shown := by
  refine ⟨logged, fun value rest fewer done => ?_⟩
  contradiction

theorem stuck {complaint : Token → SyntaxError} :
    (Outcome.stuck complaint rest : Outcome limit α).Shows skip rest shown :=
  .of_stuck (.silent List.suffix_rfl)

theorem token {first : Spanned Token} {result : α} {fewer : rest.length < limit}
    (held : shown result rest []) :
    (Outcome.value result rest fewer).Shows skip (first :: rest) shown := by
  refine ⟨.silent (List.suffix_cons first rest), fun value rest fewer same => ?_⟩
  cases same
  exact held

theorem behind (first : Spanned Token) (later : outcome.Shows skip rest shown) :
    outcome.Shows 1 (first :: rest) shown :=
  ⟨later.logged.widen (List.suffix_cons first rest) (List.drop_suffix skip rest)
    List.suffix_rfl, later.done⟩

theorem andThen {last : β → List (Spanned Token) → List StatementEvent → Prop}
    {next : α → (rest : List (Spanned Token)) → rest.length < limit → Outcome within β}
    (first : outcome.Shows skip tokens shown)
    (second : ∀ value rest fewer events, shown value rest events →
      (next value rest fewer).Shows skip rest fun result rest later =>
        last result rest (events ++ later)) :
    (outcome.andThen next).Shows skip tokens last := by
  obtain ⟨ending, events, turns⟩ := outcome
  cases ending with
  | stuck complaint rest => exact .of_stuck first.logged
  | done value rest fewer =>
    have later := second value rest fewer events (first.done value rest fewer rfl)
    exact ⟨first.logged.append later.logged (Logged.drop_isSuffix first.logged.takes skip),
      later.done⟩

theorem imp {told : α → List (Spanned Token) → List StatementEvent → Prop}
    (held : outcome.Shows skip tokens shown)
    (tells : ∀ value rest events, shown value rest events → told value rest events) :
    outcome.Shows skip tokens told :=
  ⟨held.logged, fun value rest fewer same => tells _ _ _ (held.done value rest fewer same)⟩

theorem map {last : β → List (Spanned Token) → List StatementEvent → Prop} {result : α → β}
    {enough : ∀ rest : List (Spanned Token), rest.length < limit → rest.length < within}
    (first : outcome.Shows skip tokens shown)
    (tells : ∀ value rest events, shown value rest events →
      last (result value) rest events) :
    (outcome.andThen fun value rest fewer =>
      .value (result value) rest (enough rest fewer)).Shows skip tokens last :=
  first.andThen fun made rest _ events held =>
    value (by rw [List.append_nil]; exact tells made rest events held)

theorem upTo {larger : limit ≤ within} (held : outcome.Shows skip tokens shown) :
    (outcome.upTo larger).Shows skip tokens shown :=
  held.map fun _ _ _ held => held

theorem turn {number : Nat} (held : outcome.Shows skip tokens shown) :
    (outcome.turn number).Shows skip tokens shown := ⟨held.logged, held.done⟩

theorem inside {outcome : Outcome tokens.length α}
    {last : β → List (Spanned Token) → List StatementEvent → Prop}
    {next : α → (rest : List (Spanned Token)) → rest.length < tokens.length →
      Outcome within β}
    (first : outcome.Shows 1 tokens shown)
    (second : ∀ value rest fewer events, shown value rest events →
      (next value rest fewer).Shows 0 rest fun result rest later =>
        last result rest (events ++ later)) :
    (outcome.andThen next).Shows 1 tokens last := by
  obtain ⟨ending, events, turns⟩ := outcome
  cases ending with
  | stuck complaint rest => exact .of_stuck first.logged
  | done value rest fewer =>
    have later := second value rest fewer events (first.done value rest fewer rfl)
    have place : rest <:+ tokens.drop 1 := by
      obtain ⟨own, whole⟩ : rest <:+ tokens := first.logged.takes
      cases own with
      | nil => exact absurd fewer (by simp [← whole])
      | cons token own => exact ⟨own, by rw [← whole]; rfl⟩
    exact ⟨first.logged.append later.logged place, later.done⟩

end Shows

end Descent.Outcome

end OasisSyntax
