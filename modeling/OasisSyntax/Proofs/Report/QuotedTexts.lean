import OasisSyntax.Text.Quoted

/-!
# Reading quoted texts

A quoted text can be read back.  A character stands for itself, or it is written with a
backslash, as a short mark or as its code point; what is behind the closing quote is left
over.  Neither a quote nor a line break ever stands for itself, so the closing quote is the
first one without a backslash, and a quoted text stays on its line.
-/

namespace OasisSyntax.Text

/-! ## Code points -/

def digitValue (digit : Char) : Nat :=
  if digit.isDigit then digit.toNat - '0'.toNat else digit.toNat - 'a'.toNat + 10

def hexValue (digits : List Char) : Nat :=
  digits.foldl (fun value digit => 16 * value + digitValue digit) 0

theorem digitValue_digitChar {digit : Nat} (small : digit < 16) :
    digitValue digit.digitChar = digit := by
  have all : ∀ digit < 16, digitValue (Nat.digitChar digit) = digit := by decide
  exact all digit small

theorem hexValue_toDigits (value : Nat) : hexValue (Nat.toDigits 16 value) = value := by
  induction value using Nat.strongRecOn with
  | ind value ih =>
    rw [Nat.toDigits_eq_if (by decide)]
    split
    · rename_i small
      simp only [hexValue, List.foldl_cons, List.foldl_nil, digitValue_digitChar small]
      omega
    · have earlier := ih (value / 16) (by omega)
      rw [hexValue] at earlier
      rw [hexValue, List.foldl_append, earlier, List.foldl_cons, List.foldl_nil,
        digitValue_digitChar (Nat.mod_lt value (by decide))]
      omega

theorem notMem_toDigits {mark : Char} (noDigit : ∀ digit < 16, Nat.digitChar digit ≠ mark)
    (value : Nat) : mark ∉ Nat.toDigits 16 value := by
  induction value using Nat.strongRecOn with
  | ind value ih =>
    rw [Nat.toDigits_eq_if (by decide)]
    split
    · rename_i small
      exact fun member => noDigit value small (List.mem_singleton.1 member).symm
    · rw [List.mem_append, List.mem_singleton, not_or]
      exact ⟨ih (value / 16) (by omega),
        fun same => noDigit _ (Nat.mod_lt value (by decide)) same.symm⟩

/-! ## Characters -/

def shortEscape? : Char → Option Char
  | '"' => some '"'
  | '\\' => some '\\'
  | 'n' => some '\n'
  | 'r' => some '\r'
  | 't' => some '\t'
  | '0' => some '\x00'
  | _ => none

def readCode? (text : List Char) : Option (Char × List Char) :=
  match text.dropWhile (· ≠ '}') with
  | [] => none
  | _ :: after => some (Char.ofNat (hexValue ((text.takeWhile (· ≠ '}')).drop 1)), after)

def readEscaped? : List Char → Option (Char × List Char)
  | [] => none
  | char :: rest =>
    if char = '\\' then
      match rest with
      | [] => none
      | mark :: more =>
        if mark = 'u' then readCode? more
        else (shortEscape? mark).map fun meant => (meant, more)
    else some (char, rest)

private theorem length_lt_of_readCode? {text after : List Char} {char : Char}
    (read : readCode? text = some (char, after)) : after.length < text.length := by
  have shorter := (List.dropWhile_suffix (l := text) (· ≠ '}')).length_le
  unfold readCode? at read
  split at read
  · contradiction
  · rename_i dropped
    obtain ⟨-, rfl⟩ := Prod.mk.inj (Option.some.inj read)
    rw [dropped, List.length_cons] at shorter
    exact shorter

private theorem length_lt_of_readEscaped? {text after : List Char} {char : Char}
    (read : readEscaped? text = some (char, after)) : after.length < text.length := by
  unfold readEscaped? at read
  split at read
  · contradiction
  · split at read
    · split at read
      · contradiction
      · split at read
        · have shorter := length_lt_of_readCode? read
          simp only [List.length_cons]
          omega
        · obtain ⟨meant, -, same⟩ := Option.map_eq_some_iff.1 read
          obtain ⟨-, rfl⟩ := Prod.mk.inj same
          simp only [List.length_cons]
          omega
    · obtain ⟨-, rfl⟩ := Prod.mk.inj (Option.some.inj read)
      exact Nat.lt_succ_self _

private theorem readCode?_toDigits (char : Char) (after : List Char) :
    readCode? ('{' :: (Nat.toDigits 16 char.toNat ++ '}' :: after)) =
      some (char, after) := by
  have inside : ∀ digit ∈ '{' :: Nat.toDigits 16 char.toNat,
      decide (digit ≠ '}') = true := by
    have closing : '}' ∉ Nat.toDigits 16 char.toNat := notMem_toDigits (by decide) _
    rw [List.forall_mem_cons]
    exact ⟨by decide, fun digit member =>
      decide_eq_true (ne_of_mem_of_not_mem member closing)⟩
  rw [readCode?, ← List.cons_append, List.dropWhile_append_of_pos inside,
    List.takeWhile_append_of_pos inside, List.dropWhile_cons_of_neg (by decide),
    List.takeWhile_cons_of_neg (by decide), List.append_nil]
  dsimp only
  rw [List.drop_one, List.tail_cons, hexValue_toDigits, Char.ofNat_toNat]

theorem escapeChar_cases (char : Char) :
    (∃ mark, escapeChar char = ['\\', mark] ∧ mark ≠ 'u' ∧ mark ≠ '\n' ∧
      shortEscape? mark = some char) ∨
    escapeChar char = '\\' :: 'u' :: '{' :: (Nat.toDigits 16 char.toNat ++ ['}']) ∨
    (escapeChar char = [char] ∧ char ≠ '"' ∧ char ≠ '\\' ∧ char ≠ '\n') := by
  by_cases listed : char ∈ ['"', '\\', '\n', '\r', '\t', '\x00']
  · left
    simp only [List.mem_cons, List.not_mem_nil, or_false] at listed
    rcases listed with rfl | rfl | rfl | rfl | rfl | rfl <;>
      exact ⟨_, rfl, by decide, by decide, rfl⟩
  · right
    simp only [List.mem_cons, List.not_mem_nil, or_false, not_or] at listed
    obtain ⟨quote, backslash, line, return', tab, zero⟩ := listed
    rw [escapeChar, if_neg quote, if_neg backslash, if_neg line, if_neg return',
      if_neg tab, if_neg zero]
    split
    · exact .inl rfl
    · exact .inr ⟨rfl, quote, backslash, line⟩

private theorem readEscaped?_escapeChar (char : Char) (after : List Char) :
    readEscaped? (escapeChar char ++ after) = some (char, after) := by
  rcases escapeChar_cases char with ⟨mark, form, noCode, -, meant⟩ | form |
    ⟨form, -, plain, -⟩
  · simp only [form, List.cons_append, List.nil_append, readEscaped?, if_neg noCode, meant,
      if_true, Option.map_some]
  · simp only [form, List.cons_append, List.append_assoc, List.nil_append, readEscaped?,
      if_true]
    exact readCode?_toDigits char after
  · simp only [form, List.cons_append, List.nil_append, readEscaped?, if_neg plain]

private theorem exists_escapeChar_eq (char : Char) :
    ∃ first rest, escapeChar char = first :: rest ∧ first ≠ '"' := by
  rcases escapeChar_cases char with ⟨mark, form, -⟩ | form | ⟨form, noQuote, -⟩
  · exact ⟨_, _, form, by decide⟩
  · exact ⟨_, _, form, by decide⟩
  · exact ⟨_, _, form, noQuote⟩

private theorem newline_notMem_escapeChar (char : Char) : '\n' ∉ escapeChar char := by
  rcases escapeChar_cases char with ⟨mark, form, -, visible, -⟩ | form | ⟨form, -, -, line⟩
  · simp [form, visible.symm]
  · have inside : '\n' ∉ Nat.toDigits 16 char.toNat := notMem_toDigits (by decide) _
    simp [form, inside]
  · rw [form, List.mem_singleton]
    exact line.symm

/-! ## Texts -/

def unquote? : List Char → Option (List Char × List Char)
  | [] => none
  | char :: rest =>
    if char = '"' then some ([], rest)
    else
      match _ : readEscaped? (char :: rest) with
      | none => none
      | some (meant, after) =>
        (unquote? after).map fun (chars, behind) => (meant :: chars, behind)
termination_by text => text.length
decreasing_by exact length_lt_of_readEscaped? ‹_›

private theorem unquote?_of_readEscaped? {char meant : Char} {rest after : List Char}
    (noQuote : char ≠ '"') (read : readEscaped? (char :: rest) = some (meant, after)) :
    unquote? (char :: rest) =
      (unquote? after).map fun (chars, behind) => (meant :: chars, behind) := by
  rw [unquote?, if_neg noQuote]
  split
  · rename_i nothing
    cases nothing.symm.trans read
  · rename_i meant' after' read'
    obtain ⟨rfl, rfl⟩ := Prod.mk.inj (Option.some.inj (read'.symm.trans read))
    rfl

theorem unquote?_escaped (chars after : List Char) :
    unquote? (chars.flatMap escapeChar ++ '"' :: after) = some (chars, after) := by
  induction chars with
  | nil =>
    rw [List.flatMap_nil, List.nil_append, unquote?, if_pos rfl]
  | cons char rest ih =>
    have read := readEscaped?_escapeChar char (rest.flatMap escapeChar ++ '"' :: after)
    obtain ⟨first, more, form, noQuote⟩ := exists_escapeChar_eq char
    rw [List.flatMap_cons, List.append_assoc]
    rw [form, List.cons_append] at read ⊢
    rw [unquote?_of_readEscaped? noQuote read, ih]
    rfl

theorem toList_quote (text : String) :
    (quote text).toList = '"' :: (text.toList.flatMap escapeChar ++ ['"']) :=
  String.toList_ofList

theorem newline_notMem_quote (text : String) : '\n' ∉ (quote text).toList := by
  rw [toList_quote]
  intro member
  rw [List.mem_cons, List.mem_append, List.mem_flatMap, List.mem_singleton] at member
  rcases member with same | ⟨char, -, inside⟩ | same
  · exact absurd same (by decide)
  · exact newline_notMem_escapeChar char inside
  · exact absurd same (by decide)

end OasisSyntax.Text
