/-!
# Byte offsets

Places in a text are counted in bytes of its UTF-8 form.  A place is usable only on
the boundary of a character, so cutting a text may fail.  It succeeds exactly at the
offsets that are byte lengths of beginnings of the text.
-/

namespace OasisSyntax.Text

def byteLength : List Char → Nat
  | [] => 0
  | char :: rest => char.utf8Size + byteLength rest

/-- The text before and after an offset, if the offset lies inside the text or at
its end and does not cut a character. -/
def splitAtByte? : Nat → List Char → Option (List Char × List Char)
  | 0, text => some ([], text)
  | _ + 1, [] => none
  | offset + 1, char :: rest =>
    if char.utf8Size ≤ offset + 1 then
      (splitAtByte? (offset + 1 - char.utf8Size) rest).map fun (before, after) =>
        (char :: before, after)
    else none

def sliceBytes? (start stop : Nat) (text : List Char) : Option (List Char) := do
  let (_, after) ← splitAtByte? start text
  if start ≤ stop then
    let (slice, _) ← splitAtByte? (stop - start) after
    pure slice
  else none

@[simp] theorem byteLength_append (first second : List Char) :
    byteLength (first ++ second) = byteLength first + byteLength second := by
  induction first with
  | nil => simp [byteLength]
  | cons char rest ih =>
    simp [byteLength, ih]
    omega

theorem byteLength_pos {text : List Char} (present : text ≠ []) :
    0 < byteLength text := by
  cases text with
  | nil => contradiction
  | cons char rest =>
    have := char.utf8Size_pos
    simp only [byteLength]
    omega

theorem splitAtByte?_append (before after : List Char) :
    splitAtByte? (byteLength before) (before ++ after) = some (before, after) := by
  induction before with
  | nil => simp [byteLength, splitAtByte?]
  | cons char rest ih =>
    obtain ⟨size, positive⟩ :=
      Nat.exists_eq_succ_of_ne_zero (Nat.ne_of_gt char.utf8Size_pos)
    have offset : byteLength (char :: rest) = size + byteLength rest + 1 := by
      simp only [byteLength, positive]
      omega
    have remaining : size + byteLength rest + 1 - char.utf8Size = byteLength rest := by
      omega
    rw [offset, List.cons_append, splitAtByte?, remaining, ih]
    simp
    omega

theorem append_inj_of_byteLength {first second rest others : List Char}
    (same : first ++ rest = second ++ others)
    (length : byteLength first = byteLength second) : rest = others := by
  have cut := splitAtByte?_append first rest
  rw [same, length, splitAtByte?_append] at cut
  exact (congrArg Prod.snd (Option.some.inj cut)).symm

theorem exists_append_of_byteLength_le {first second rest others : List Char}
    (same : first ++ rest = second ++ others)
    (shorter : byteLength first ≤ byteLength second) :
    ∃ more, second = first ++ more ∧ rest = more ++ others := by
  rcases List.append_eq_append_iff.1 same with ⟨more, longer, split⟩ | ⟨more, longer, split⟩
  · exact ⟨more, longer, split⟩
  · cases more with
    | nil => exact ⟨[], by simpa using longer.symm, by simpa using split.symm⟩
    | cons char more =>
      have := byteLength_pos (List.cons_ne_nil char more)
      rw [longer, byteLength_append] at shorter
      omega

theorem sliceBytes?_append (before slice after : List Char) :
    sliceBytes? (byteLength before) (byteLength before + byteLength slice)
      (before ++ (slice ++ after)) = some slice := by
  simp [sliceBytes?, splitAtByte?_append]

theorem eq_append_of_splitAtByte? {offset : Nat} {text before after : List Char}
    (split : splitAtByte? offset text = some (before, after)) :
    text = before ++ after ∧ byteLength before = offset := by
  induction text generalizing offset before with
  | nil =>
    cases offset with
    | zero =>
      cases split
      exact ⟨rfl, rfl⟩
    | succ offset => cases split
  | cons char rest ih =>
    cases offset with
    | zero =>
      cases split
      exact ⟨rfl, rfl⟩
    | succ offset =>
      rw [splitAtByte?] at split
      split at split
      · rename_i fits
        obtain ⟨⟨front, back⟩, cut, same⟩ := Option.map_eq_some_iff.1 split
        cases same
        obtain ⟨whole, length⟩ := ih cut
        refine ⟨by rw [whole, List.cons_append], ?_⟩
        rw [byteLength, length]
        omega
      · cases split

theorem exists_slice {start stop : Nat} {text : List Char} (ordered : start ≤ stop)
    (starts : (splitAtByte? start text).isSome) (stops : (splitAtByte? stop text).isSome) :
    ∃ before slice after, text = before ++ (slice ++ after) ∧
      byteLength before = start ∧ start + byteLength slice = stop := by
  obtain ⟨⟨before, rest⟩, split⟩ := Option.isSome_iff_exists.1 starts
  obtain ⟨⟨longer, after⟩, split'⟩ := Option.isSome_iff_exists.1 stops
  obtain ⟨rfl, rfl⟩ := eq_append_of_splitAtByte? split
  obtain ⟨same, rfl⟩ := eq_append_of_splitAtByte? split'
  obtain ⟨slice, rfl, rfl⟩ := exists_append_of_byteLength_le same ordered
  exact ⟨before, slice, after, rfl, rfl, (byteLength_append before slice).symm⟩

end OasisSyntax.Text
