import OasisSyntax.Proofs.Parsing.Texts
import OasisSyntax.Proofs.Report.FullSinks
import OasisSyntax.Proofs.Report.QuotedTexts

/-!
# Reading token listings

The listing of a source can be read back: one reader, which knows nothing of the source,
finds the kind, the literal and the offset of every token on a line of its own.  The parser
looks at nothing else, so sources with equal listings are equal for it, apart from where
the spans of their errors stop.
-/

namespace OasisSyntax

def entry (token : Spanned Token) : Token × Nat :=
  (token.node, token.span.start)

/-! ## The reader of listings -/

/-- Reads the kind up to a blank, the literal up to its closing quote, and the offset. -/
def readLine? (line : List Char) : Option (Token × Nat) :=
  match line.dropWhile (· ≠ ' ') with
  | ' ' :: '"' :: quoted =>
    match Text.unquote? quoted with
    | some (literal, ' ' :: '@' :: digits) =>
      (Kind.ofName? (String.ofList (line.takeWhile (· ≠ ' ')))).map fun kind =>
        (⟨kind, String.ofList literal⟩, Nat.ofDigitChars 10 digits 0)
    | _ => none
  | _ => none

/-- The lines of a listing; what follows the last line break is none of them. -/
def listingLines? (bytes : List UInt8) : Option (List (List Char)) :=
  bytes.toByteArray.utf8Decode?.map fun chars => (chars.toList.splitOn '\n').dropLast

def readListing? (bytes : List UInt8) : Option (List (Token × Nat)) :=
  (listingLines? bytes).bind (·.mapM readLine?)

/-! ## Lines -/

def lineChars (token : Spanned Token) : List Char :=
  token.node.kind.name.toList ++ ' ' :: ((Text.quote token.node.literal).toList ++
    ' ' :: '@' :: Nat.toDigits 10 token.span.start)

private theorem toList_tokenLine (token : Spanned Token) :
    (tokenLine token).toList = lineChars token ++ ['\n'] := by
  rw [← join_tokenPieces]
  simp only [tokenPieces, String.join_cons, String.join_nil, String.toList_append,
    Nat.toString_eq_ofList_toDigits, String.toList_ofList, lineChars, List.append_assoc,
    List.cons_append]
  rfl

theorem Kind.notMem_name (kind : Kind) :
    ' ' ∉ kind.name.toList ∧ '\n' ∉ kind.name.toList := by
  cases kind <;> decide

theorem newline_notMem_lineChars (token : Spanned Token) : '\n' ∉ lineChars token := by
  have name := token.node.kind.notMem_name.2
  have literal := Text.newline_notMem_quote token.node.literal
  have digits : '\n' ∉ Nat.toDigits 10 token.span.start := fun member =>
    absurd (Nat.isDigit_of_mem_toDigits (by decide) (by decide) member) (by decide)
  simp [lineChars, name, literal, digits]

theorem readLine?_lineChars (token : Spanned Token) :
    readLine? (lineChars token) = some (entry token) := by
  obtain ⟨span, kind, literal⟩ := token
  have inside : ∀ char ∈ kind.name.toList, decide (char ≠ ' ') = true := fun char member =>
    decide_eq_true (ne_of_mem_of_not_mem member kind.notMem_name.1)
  have quoted := Text.unquote?_escaped literal.toList
    (' ' :: '@' :: Nat.toDigits 10 span.start)
  rw [readLine?, lineChars, List.dropWhile_append_of_pos inside,
    List.takeWhile_append_of_pos inside, List.dropWhile_cons_of_neg (by decide),
    List.takeWhile_cons_of_neg (by decide), List.append_nil, Text.toList_quote,
    String.ofList_toList, Kind.ofName?_name]
  simp only [List.cons_append, List.append_assoc, List.nil_append, quoted,
    String.ofList_toList, Option.map_some, Nat.ofDigitChars_ten_toDigits]
  rfl

/-! ## Listings -/

private theorem toList_listing (tokens : List (Spanned Token)) :
    (String.join (tokens.map tokenLine)).toList =
      tokens.flatMap fun token => lineChars token ++ ['\n'] := by
  induction tokens with
  | nil => rfl
  | cons token rest ih =>
    rw [List.map_cons, String.join_cons, String.toList_append, toList_tokenLine, ih,
      List.flatMap_cons]

private theorem splitOn_listing (tokens : List (Spanned Token)) :
    (tokens.flatMap fun token => lineChars token ++ ['\n']).splitOn '\n' =
      tokens.map lineChars ++ [[]] := by
  induction tokens with
  | nil => exact List.splitOn_nil '\n'
  | cons token rest ih =>
    rw [List.flatMap_cons, List.append_assoc, List.singleton_append,
      List.splitOn_append_cons_self_of_not_mem (newline_notMem_lineChars token), ih,
      List.map_cons, List.cons_append]

theorem listingLines?_listing (tokens : List (Spanned Token)) :
    listingLines? (Sink.bytesOf (String.join (tokens.map tokenLine))) =
      some (tokens.map lineChars) := by
  have decoded := @List.utf8Decode?_utf8Encode
    (String.join (tokens.map tokenLine)).toList
  rw [listingLines?, Sink.bytesOf]
  rw [List.utf8Encode] at decoded
  rw [decoded, Option.map_some, toList_listing, splitOn_listing, List.dropLast_concat]

theorem readListing?_listing (tokens : List (Spanned Token)) :
    readListing? (Sink.bytesOf (String.join (tokens.map tokenLine))) =
      some (tokens.map entry) := by
  rw [readListing?, listingLines?_listing, Option.bind_some]
  induction tokens with
  | nil => rfl
  | cons token rest ih =>
    rw [List.map_cons, List.mapM_cons, readLine?_lineChars, ih]
    rfl

theorem written_dumpTokens (source : Source) :
    dumpTokens source .unlimited =
      (.ok (), (dumpTokens source .unlimited).2) ∧
    (dumpTokens source .unlimited).2.written =
      Sink.bytesOf (String.join ((Reader.ofText source.text).tokens.map tokenLine)) := by
  rw [dumpTokens, Sink.emit_eq]
  exact ⟨rfl, Sink.written_write_unlimited _ []⟩

/-! ## Parsing -/

private theorem StopsAt.of_map_entry {tokens others taken : List (Spanned Token)}
    {current : Spanned Token} {settled : State .program}
    (stops : StopsAt tokens taken current settled)
    (same : tokens.map entry = others.map entry) :
    ∃ taken' current', StopsAt others taken' current' settled ∧
      entry current = entry current' := by
  have begins := stops.begins.map entry
  rw [same] at begins
  obtain ⟨whole, begins, eq⟩ := List.prefix_map_iff.1 begins
  rw [List.map_append, List.map_singleton] at eq
  obtain ⟨taken', last, rfl, taken_eq, last_eq⟩ := List.append_eq_map_iff.1 eq
  obtain ⟨current', rfl, current_eq⟩ := List.map_eq_singleton_iff.1 last_eq
  have nodes : taken'.map (·.node) = taken.map (·.node) := by
    have firsts := congrArg (List.map Prod.fst) taken_eq
    rw [List.map_map, List.map_map] at firsts
    exact firsts
  have node : current'.node = current.node := congrArg Prod.fst current_eq
  refine ⟨taken', current', ⟨begins, ?_, ?_⟩, current_eq.symm⟩
  · rw [node, nodes]
    exact stops.reached
  · rw [node]
    exact stops.stuck

private theorem parse_eq_of_map_entry {text text' : List Char}
    (same : (Reader.ofText text).tokens.map entry = (Reader.ofText text').tokens.map entry) :
    (parse text).mapError (fun error => (error.node, error.span.start)) =
      (parse text').mapError fun error => (error.node, error.span.start) := by
  have walk := Reader.walk_ofText text
  obtain ⟨taken, current, settled, stops⟩ := walk.exists_stopsAt
  obtain ⟨taken', current', stops', entries⟩ := stops.of_map_entry same
  obtain ⟨node, start⟩ := Prod.mk.inj entries
  rw [parse_of_stopsAt walk stops, parse_of_stopsAt (Reader.walk_ofText text') stops',
    State.judgement, State.judgement, node]
  cases settled.verdict current'.node with
  | ok program => rfl
  | error error => exact congrArg (fun start => Except.error (error, start)) start

/-- There is one reader for the listings of all sources: it finds the kind, the literal
and the offset of every token, one on each line.  Sources with the same listing have the
same parse tree, or errors that say the same about the same offset. -/
theorem dumpTokens_faithful :
    (∀ source : Source,
      let tokens := (Reader.ofText source.text).tokens
      let listing := (dumpTokens source .unlimited).2.written
      (dumpTokens source .unlimited).1 = .ok () ∧
        readListing? listing = some (tokens.map entry) ∧
        ∃ lines, listingLines? listing = some lines ∧
          lines.map readLine? = tokens.map fun token => some (entry token)) ∧
    ∀ first second : Source,
      (dumpTokens first .unlimited).2.written = (dumpTokens second .unlimited).2.written →
      (parse first.text).mapError (fun error => (error.node, error.span.start)) =
        (parse second.text).mapError fun error => (error.node, error.span.start) := by
  constructor
  · intro source tokens listing
    obtain ⟨listed, written⟩ := written_dumpTokens source
    have bytes : listing = Sink.bytesOf (String.join (tokens.map tokenLine)) := written
    rw [bytes]
    refine ⟨congrArg Prod.fst listed, readListing?_listing tokens, _,
      listingLines?_listing tokens, ?_⟩
    rw [List.map_map]
    exact List.map_congr_left fun token _ => readLine?_lineChars token
  · intro first second same
    rw [(written_dumpTokens first).2, (written_dumpTokens second).2] at same
    have entries := congrArg readListing? same
    rw [readListing?_listing, readListing?_listing] at entries
    exact parse_eq_of_map_entry (Option.some.inj entries)

/-- A blank or a tab between two names: the listings are the same, and so is the error. -/
theorem dumpTokens_faithful_blank :
    let first : Source := ⟨"main", "a b"⟩
    let second : Source := ⟨"other", "a\tb"⟩
    readListing? (dumpTokens first .unlimited).2.written =
        some [(⟨.ident, "a"⟩, 0), (⟨.ident, "b"⟩, 2), (⟨.semi, ""⟩, 3), (⟨.eof, ""⟩, 3)] ∧
      (dumpTokens first .unlimited).2.written = (dumpTokens second .unlimited).2.written ∧
      (parse second.text).mapError (fun error => (error.node, error.span.start)) =
        .error (.missing .semi ⟨.ident, "b"⟩, 2) := by
  intro first second
  have tokens : (Reader.ofText first.text).tokens = [⟨⟨0, 1⟩, ⟨.ident, "a"⟩⟩,
      ⟨⟨2, 3⟩, ⟨.ident, "b"⟩⟩, ⟨⟨3, 3⟩, ⟨.semi, ""⟩⟩, ⟨⟨3, 3⟩, ⟨.eof, ""⟩⟩] := by decide +kernel
  have tokens' : (Reader.ofText second.text).tokens = (Reader.ofText first.text).tokens := by
    rw [tokens]
    decide +kernel
  have same : (dumpTokens first .unlimited).2.written =
      (dumpTokens second .unlimited).2.written := by
    rw [(written_dumpTokens first).2, (written_dumpTokens second).2, tokens']
  have fails : parse first.text = .error ⟨⟨2, 3⟩, .missing .semi ⟨.ident, "b"⟩⟩ := by
    decide +kernel
  refine ⟨?_, same, ?_⟩
  · rw [(dumpTokens_faithful.1 first).2.1, tokens]
    rfl
  · rw [← dumpTokens_faithful.2 first second same, fails]
    rfl

end OasisSyntax
