import OasisSyntax.CommandLine.Terminal
import OasisSyntax.Proofs.Report.Places
import OasisSyntax.Report.Log

/-!
# Sinks without enough room

A sink with room for so many bytes takes that many of what is written to it, in order, and
fails if that was not all.  It does not matter in which pieces a text is written: the
failure may strike inside of any of them.  So whoever writes to the sink learns of the
failure, and the bytes that got through are the first ones of the whole text.
-/

namespace OasisSyntax

namespace Sink

@[simp] theorem bytesOf_append (first second : String) :
    bytesOf (first ++ second) = bytesOf first ++ bytesOf second := by
  rw [bytesOf, String.toList_append, List.flatMap_append]
  rfl

theorem write_limited (text : String) (taken : List UInt8) (room : Nat) :
    write text ⟨taken, some room⟩ =
      (decide ((bytesOf text).length ≤ room),
        ⟨((bytesOf text).take room).reverse ++ taken,
          some (room - (bytesOf text).length)⟩) := rfl

theorem write_append (sink : Sink) (first second : String) :
    sink.write (first ++ second) =
      match sink.write first with
      | (true, after) => after.write second
      | (false, after) => (false, after) := by
  obtain ⟨taken, room⟩ := sink
  cases room with
  | none =>
    simp only [write, bytesOf_append, List.reverse_append, List.append_assoc]
  | some room =>
    rw [write_limited, write_limited, bytesOf_append, List.length_append]
    by_cases fits : (bytesOf first).length ≤ room
    · have left : (bytesOf second).length ≤ room - (bytesOf first).length ↔ _ :=
        Nat.le_sub_iff_add_le' fits
      rw [decide_eq_true fits]
      dsimp only
      rw [write_limited, decide_eq_decide.2 left, List.take_append, List.take_of_length_le fits,
        List.reverse_append, List.append_assoc, Nat.sub_sub]
    · have less : room ≤ (bytesOf first).length := Nat.le_of_not_le fits
      have more : ¬ (bytesOf first).length + (bytesOf second).length ≤ room := by omega
      rw [decide_eq_false fits, decide_eq_false more, List.take_append_of_le_length less,
        Nat.sub_eq_zero_of_le less, Nat.sub_eq_zero_of_le (Nat.le_of_not_le more)]

theorem writeAll_eq_write (sink : Sink) (texts : List String) :
    sink.writeAll texts = sink.write (String.join texts) := by
  induction texts generalizing sink with
  | nil =>
    obtain ⟨taken, room⟩ := sink
    cases room <;> simp [writeAll, write, bytesOf]
  | cons text rest ih =>
    rw [String.join_cons, write_append, writeAll]
    cases sink.write text with
    | mk whole after =>
      cases whole with
      | false => rfl
      | true => exact ih after

theorem emit_eq (sink : Sink) (texts : List String) :
    sink.emit texts =
      match sink.write (String.join texts) with
      | (true, after) => (.ok (), after)
      | (false, after) => (.error (.transfer "sink is full"), after) := by
  rw [← writeAll_eq_write]
  rfl

theorem emit_limited (texts : List String) (taken : List UInt8) (room : Nat) :
    ∃ after, emit texts ⟨taken, some room⟩ =
        (if (bytesOf (String.join texts)).length ≤ room then .ok ()
          else .error (.transfer "sink is full"), after) ∧
      after.written = (⟨taken, some room⟩ : Sink).written ++
        (bytesOf (String.join texts)).take room := by
  refine ⟨(write (String.join texts) ⟨taken, some room⟩).2, ?_, written_write_limited _ _ _⟩
  rw [emit_eq, write_limited]
  by_cases fits : (bytesOf (String.join texts)).length ≤ room
  · rw [decide_eq_true fits, if_pos fits]
  · rw [decide_eq_false fits, if_neg fits]

end Sink

/-! ## Listing tokens -/

def tokenPieces (token : Spanned Token) : List String :=
  [token.node.kind.name, " ", Text.quote token.node.literal, " @",
    toString token.span.start, "\n"]

theorem join_tokenPieces (token : Spanned Token) :
    String.join (tokenPieces token) = tokenLine token := by
  simp only [tokenPieces, tokenLine, String.join_cons, String.join_nil,
    String.append_empty, String.append_assoc]
  rfl

/-- Lists the tokens of a reader one by one.  Their number is logged at the end, unless
the listing has failed before. -/
def Reader.list (name : String) (listed : Nat) (reader : Reader) (sink : Sink) :
    Except CompileError Unit × Sink × List LogEvent :=
  match sink.emit (tokenPieces reader.next.1) with
  | (.error error, after) => (.error error, after, [])
  | (.ok (), after) =>
    if reader.next.1.node.kind = .eof then
      (.ok (), after, [.outcome s!"scanned {listed + 1} tokens of {name}"])
    else list name (listed + 1) reader.next.2 after
termination_by reader.size
decreasing_by exact reader.next_size_lt ‹_›

theorem Reader.list_eq (name : String) (listed : Nat) (reader : Reader) (sink : Sink) :
    reader.list name listed sink =
      match sink.emit (reader.tokens.map tokenLine) with
      | (.error error, after) => (.error error, after, [])
      | (.ok (), after) =>
        (.ok (), after,
          [.outcome s!"scanned {listed + reader.tokens.length} tokens of {name}"]) := by
  induction size : reader.size using Nat.strong_induction_on
    generalizing listed reader sink with
  | _ size ih =>
  subst size
  have line (rest : List String) :
      String.join (tokenLine reader.next.1 :: rest) =
        String.join (tokenPieces reader.next.1) ++ String.join rest := by
    rw [join_tokenPieces, String.join_cons]
  rw [list, tokens, Sink.emit_eq, Sink.emit_eq]
  by_cases last : reader.next.1.node.kind = .eof
  · simp only [if_pos last]
    rw [List.map_singleton, line, String.join_nil, String.append_empty]
    rfl
  · simp only [if_neg last]
    rw [List.map_cons, line, Sink.write_append]
    cases sink.write (String.join (tokenPieces reader.next.1)) with
    | mk taken after =>
      cases taken with
      | false => rfl
      | true =>
        dsimp only
        rw [ih _ (reader.next_size_lt last) (listed + 1) reader.next.2 after rfl,
          Sink.emit_eq, List.length_cons, Nat.add_right_comm]
        rfl

/-! ## The front end -/

private theorem parseSource?_of_error {terminal : Terminal} {source : Source}
    {error : Spanned SyntaxError} (fails : parse source.text = .error error)
    {diagnostic : Diagnostic}
    (shown : Diagnostic.ofError? terminal source error = some diagnostic) (color : Bool)
    (sink : Sink) :
    parseSource? terminal source color sink =
      let (answer, after) := sink.emit [diagnostic.render terminal color, "\n"]
      some (answer.bind fun _ => .error .syntaxError, after) := by
  simp only [parseSource?, fails, reportError?, shown, emitMessage, Option.map_some]

/-- Parsing a source that is a program writes nothing to the sink.  Otherwise the sink
gets the diagnostic, and it gets the list of tokens if they are listed; either way it has
taken as many bytes of that as it had room for, and if this was not all of them, the answer
is that the sink is full.  The number of tokens is logged if the list is complete. -/
theorem frontEnd_fills_sink (terminal : Terminal) (source : Source) (color : Bool)
    (taken : List UInt8) (room : Nat) :
    let sink : Sink := ⟨taken, some room⟩
    let tokens := (Reader.ofText source.text).tokens
    (∀ program, parse source.text = .ok program →
      parseSource? terminal source color sink = some (.ok program, sink)) ∧
    (∀ error, parse source.text = .error error →
      ∃ diagnostic after, Diagnostic.ofError? terminal source error = some diagnostic ∧
        let bytes := Sink.bytesOf (diagnostic.render terminal color ++ "\n")
        parseSource? terminal source color sink =
            some (.error (if bytes.length ≤ room then .syntaxError
              else .transfer "sink is full"), after) ∧
          after.written = sink.written ++ bytes.take room) ∧
    let bytes := Sink.bytesOf (String.join (tokens.map tokenLine))
    ∃ answer after log,
      (Reader.ofText source.text).list source.name 0 sink = (answer, after, log) ∧
        dumpTokens source sink = (answer, after) ∧
        after.written = sink.written ++ bytes.take room ∧
        if bytes.length ≤ room then answer = .ok () ∧ log = dumpLog source
        else answer = .error (.transfer "sink is full") ∧ log = [] := by
  intro sink tokens
  refine ⟨fun program parsed => ?_, fun error fails => ?_, ?_⟩
  · rw [parseSource?, parsed]
  · obtain ⟨diagnostic, shown⟩ := Option.isSome_iff_exists.1
      ((fitsIn_of_parse_error fails).diagnostic_isSome terminal error.node.message)
    have reported := parseSource?_of_error fails shown color sink
    obtain ⟨after, emitted, written⟩ :=
      Sink.emit_limited [diagnostic.render terminal color, "\n"] taken room
    have joined : String.join [diagnostic.render terminal color, "\n"] =
        diagnostic.render terminal color ++ "\n" := by
      rw [String.join_cons, String.join_cons, String.join_nil, String.append_empty]
    rw [joined] at emitted written
    refine ⟨diagnostic, after, shown, ?_, written⟩
    rw [reported, emitted]
    dsimp only
    split <;> rfl
  · intro bytes
    have listed := (Reader.ofText source.text).list_eq source.name 0 sink
    obtain ⟨after, emitted, written⟩ := Sink.emit_limited (tokens.map tokenLine) taken room
    rw [emitted, Nat.zero_add] at listed
    by_cases fits : bytes.length ≤ room
    · rw [if_pos fits] at listed emitted
      refine ⟨_, after, _, listed, emitted, written, ?_⟩
      rw [if_pos fits]
      exact ⟨rfl, rfl⟩
    · rw [if_neg fits] at listed emitted
      refine ⟨_, after, _, listed, emitted, written, ?_⟩
      rw [if_neg fits]
      exact ⟨rfl, rfl⟩

/-- Room for the first word of the message alone, and for a part of the first line. -/
theorem frontEnd_fills_sink_halfway :
    let source : Source := ⟨"main", "(1"⟩
    let sink : Sink := ⟨[], some 7⟩
    (∃ error, parse source.text = .error error) ∧
      (∃ after, parseSource? .standard source false sink =
          some (.error (.transfer "sink is full"), after) ∧
        after.written = Sink.bytesOf "error: ") ∧
      ∃ after, (Reader.ofText source.text).list source.name 0 sink =
          (.error (.transfer "sink is full"), after, []) ∧
        after.written = Sink.bytesOf "LParen " := by
  intro source sink
  have fails : parse source.text = .error ⟨⟨2, 2⟩, .missing .rparen ⟨.semi, ""⟩⟩ := by
    decide +kernel
  have tokens : (Reader.ofText source.text).tokens = [⟨⟨0, 1⟩, ⟨.lparen, "("⟩⟩,
      ⟨⟨1, 2⟩, ⟨.int, "1"⟩⟩, ⟨⟨2, 2⟩, ⟨.semi, ""⟩⟩, ⟨⟨2, 2⟩, ⟨.eof, ""⟩⟩] := by decide +kernel
  obtain ⟨-, reports, answer, after, log, listed, -, written, outcome⟩ :=
    frontEnd_fills_sink .standard source false [] 7
  obtain ⟨diagnostic, after', shown, reported, written'⟩ := reports _ fails
  have message : Diagnostic.ofError? .standard source ⟨⟨2, 2⟩, .missing .rparen ⟨.semi, ""⟩⟩ =
      some ⟨"expected ')', got end of statement", "main", ⟨1, 3⟩, ⟨1, "(1", 2, 1⟩⟩ := by
    decide
  obtain rfl := Option.some.inj (message.symm.trans shown)
  rw [tokens] at written outcome
  rw [if_neg (by decide +kernel)] at reported outcome
  obtain ⟨rfl, rfl⟩ := outcome
  refine ⟨⟨_, fails⟩, ⟨after', reported, ?_⟩, after, listed, ?_⟩
  · rw [written']
    decide +kernel
  · rw [written]
    decide +kernel

end OasisSyntax
