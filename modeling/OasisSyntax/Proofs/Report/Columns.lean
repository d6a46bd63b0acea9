import Mathlib.Algebra.GroupWithZero.Nat
import OasisSyntax.CommandLine.Terminal

/-!
# Characters drawn by themselves

Where every character is drawn by itself, a text takes the columns of its characters
together, whatever their order; only the two characters of a line break take none.  The
standard terminal draws a text so unless it holds marks of style or characters of which
emoji and ligatures are made.
-/

namespace OasisSyntax

namespace Text

variable {width : Char → Nat}

/-- The columns of all characters together.  A carriage return takes none in front of a
line feed. -/
def sumColumns (width : Char → Nat) : List Char → Nat
  | [] => 0
  | char :: rest =>
    (if char = '\r' ∧ rest.head? = some '\n' then 0 else width char) + sumColumns width rest

private theorem sumColumns_of_notMem {text : List Char} (whole : '\n' ∉ text) :
    sumColumns width text = (text.map width).sum := by
  induction text with
  | nil => rfl
  | cons char rest ih =>
    have whole : '\n' ∉ rest := fun member => whole (.tail char member)
    have alone : rest.head? ≠ some '\n' := fun first => whole (List.mem_of_head? first)
    rw [sumColumns, if_neg fun broken => alone broken.2, ih whole, List.map_cons,
      List.sum_cons]

end Text

/-- Texts of the given characters take as many columns as their characters.  A line break
takes none, and a carriage return anywhere else takes one. -/
structure Terminal.DrawsApart (terminal : Terminal) (width : Char → Nat)
    (chars : List Char) : Prop where
  lineFeed : width '\n' = 0
  carriageReturn : width '\r' = 1
  columns_eq : ∀ text ⊆ chars, terminal.columns text = Text.sumColumns width text

theorem Terminal.DrawsApart.columns_line {terminal : Terminal} {width : Char → Nat}
    {chars line : List Char} (apart : terminal.DrawsApart width chars)
    (inside : line ⊆ chars) (whole : '\n' ∉ line) :
    terminal.columns line = (line.map width).sum := by
  rw [apart.columns_eq line inside, Text.sumColumns_of_notMem whole]

/-! ## The standard terminal -/

namespace Text

def IsSingle (char : Char) : Prop :=
  Style.ofMark? char = none ∧ Tail.of char = if char = '\n' then .lineFeed else .plain

instance (char : Char) : Decidable (IsSingle char) := inferInstanceAs (Decidable (_ ∧ _))

/-- What a text of single characters is to a character in front of it. -/
def breakTail (text : List Char) : Tail :=
  if text.head? = some '\n' then .lineFeed else .plain

private theorem before_of_isSingle {char : Char} (single : IsSingle char) (rest : List Char) :
    Following.before char ⟨.unmarked, breakTail rest⟩ =
      (((if char = '\r' ∧ rest.head? = some '\n' then 0 else charColumns char : Nat) : Int),
        ⟨.unmarked, breakTail (char :: rest)⟩) := by
  obtain ⟨noMark, tail⟩ := single
  have behind : breakTail (char :: rest) = Tail.of char := by
    simp only [breakTail, List.head?_cons, Option.some.injEq, tail]
  simp only [Following.before, Following.unstyledBefore, noMark, behind]
  by_cases broken : rest.head? = some '\n'
  · by_cases return' : char = '\r'
    · subst return'
      simp only [breakTail, broken, Tail.before, Tail.before?]
      rfl
    · simp [breakTail, broken, return', Tail.before, Tail.before?]
  · simp [breakTail, broken, Tail.before, Tail.before?]

private theorem measureText_of_isSingle {text : List Char}
    (single : ∀ char ∈ text, IsSingle char) :
    measureText text =
      ((sumColumns charColumns text : Int), ⟨.unmarked, breakTail text⟩) := by
  induction text with
  | nil => rfl
  | cons char rest ih =>
    obtain ⟨first, single⟩ := List.forall_mem_cons.1 single
    have step : measureText (char :: rest) =
        ((measureText rest).1 + ((measureText rest).2.before char).1,
          ((measureText rest).2.before char).2) := rfl
    rw [step, ih single, before_of_isSingle first, sumColumns, Int.natCast_add, Int.add_comm]

end Text

theorem Terminal.standard_drawsApart {chars : List Char}
    (single : chars.all fun char => Text.IsSingle char) :
    standard.DrawsApart Text.charColumns chars := by
  rw [List.all_eq_true] at single
  refine ⟨by decide, by decide, fun text inside => ?_⟩
  have measured := Text.measureText_of_isSingle fun char member =>
    of_decide_eq_true (single char (inside member))
  exact congrArg (fun measure : Int × Text.Following => measure.1.toNat) measured

end OasisSyntax
