import OasisSyntax.Parsing.State
import OasisSyntax.Token.Reader

/-!
# Parsing sessions

A stream hands out its tokens one by one and its final token forever after.  A
session holds the token that is current in a stream and can read programs and
expressions from there on, one after another.  A token that does not fit stays the
current one, so reading can go on after an error.
-/

namespace OasisSyntax

structure TokenStream where
  upcoming : List (Spanned Token)
  final : Spanned Token
deriving DecidableEq, Repr

namespace TokenStream

def endToken (length : Nat) : Spanned Token := ⟨⟨length, length⟩, ⟨.eof, ""⟩⟩

def ofTokens (tokens : List (Spanned Token)) (length : Nat) : TokenStream :=
  ⟨tokens, endToken length⟩

def ofText (text : List Char) : TokenStream :=
  ofTokens (Reader.ofText text).tokens (Text.byteLength text)

def current (stream : TokenStream) : Spanned Token := stream.upcoming.headD stream.final

end TokenStream

def State.answer {goal : Goal} (state : State goal) (token : Spanned Token) :
    Except (Spanned SyntaxError) goal.Result :=
  ((state.settle token.node.kind).verdict token.node).mapError fun error =>
    ⟨token.span, error⟩

/-- Takes tokens as long as they fit; returns the verdict on the first one that
does not, and the tokens from that one on. -/
def State.run {goal : Goal} (final : Spanned Token) (state : State goal) :
    List (Spanned Token) →
      Except (Spanned SyntaxError) goal.Result × List (Spanned Token)
  | [] => (state.answer final, [])
  | token :: rest =>
    match state.step? token.node with
    | some after => after.run final rest
    | none => (state.answer token, token :: rest)

structure Session where
  stream : TokenStream
  /-- How many tokens have been taken from the stream, the current one included. -/
  taken : Nat
deriving DecidableEq, Repr

namespace Session

def start (stream : TokenStream) : Session := ⟨stream, 1⟩

def read (goal : Goal) (session : Session) :
    Except (Spanned SyntaxError) goal.Result × Session :=
  let before := session.stream.upcoming
  let (answer, after) := (State.start goal).run session.stream.final before
  (answer, ⟨{ session.stream with upcoming := after },
    session.taken + (before.length - after.length)⟩)

end Session

instance decidableEqExcept {ε α : Type} [DecidableEq ε] [DecidableEq α] :
    DecidableEq (Except ε α)
  | .ok a, .ok b => decidable_of_iff (a = b) (by rw [Except.ok.injEq])
  | .error a, .error b => decidable_of_iff (a = b) (by rw [Except.error.injEq])
  | .ok _, .error _ => isFalse (by simp)
  | .error _, .ok _ => isFalse (by simp)

def parse (text : List Char) : Except (Spanned SyntaxError) Program :=
  ((Session.start (TokenStream.ofText text)).read .program).1

end OasisSyntax
