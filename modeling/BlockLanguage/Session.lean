/-
**Parsing step by step.**

A session keeps a cursor and the options of the parse, and answers one request after another. A
request looks at the tokens ahead, takes some of them, or reads a whole construct; each answer comes
with the session as it is afterwards. An error tells where it stops the request.

* `ask`, `askAll`: requests up to the first error.
* `attempt`, `attemptAll`: requests that go on behind errors.
-/

import BlockLanguage.Parse

namespace BlockLanguage

/-- A parse under way. -/
structure Session where
  cursor : Cursor
  options : Options

namespace Session

/-- What a session is asked. -/
inductive Request
  | peek
  | advance
  | isAtEnd
  | checkKeyword (lexeme : String)
  | matchKeyword (lexeme : String)
  | consumeKeyword (lexeme : String)
  | consumeIdentifier
  | consumeCondition
  | consumeClosingName (name : String)
  | expectEndOfInput
  | unexpected (expected : String)
  | remaining
  | statement
  | block
  | program

/-- What a session answers. -/
inductive Reply
  | done
  | truth (holds : Bool)
  | token (token : Token)
  | tokens (tokens : List Token)
  | identifier (name : Identifier)
  | condition (condition : Condition)
  | error (error : ParseError)
  | fragment (fragment : Fragment)
  | program (program : Program)

/-- The session at the front of a token list. -/
def start (options : Options) (tokens : List Token) : Session := ⟨.ofTokens tokens, options⟩

@[simp] theorem cursor_start (options : Options) (tokens : List Token) :
    (start options tokens).cursor = .ofTokens tokens := rfl

@[simp] theorem options_start (options : Options) (tokens : List Token) :
    (start options tokens).options = options := rfl

/-- The index of the token that a session stands at. -/
def position (session : Session) : Nat := session.cursor.position

/-- The rule that answers a request. -/
def Request.rule (limit : Nat) : Request → Rule Reply
  | peek => return .token (← Rule.front)
  | advance => return .token (← Rule.advance)
  | isAtEnd => return .truth (← Rule.here).atEnd
  | checkKeyword lexeme => return .truth (Grammar.stands lexeme (← Rule.here))
  | matchKeyword lexeme => return .truth (← Grammar.optional lexeme)
  | consumeKeyword lexeme => do Grammar.keyword lexeme; return .done
  | consumeIdentifier => return .identifier (← Grammar.identifier)
  | consumeCondition => return .condition (← Grammar.condition)
  | consumeClosingName name => do Grammar.closingName name; return .done
  | expectEndOfInput => do Grammar.endOfInput; return .done
  | unexpected expected => return .error ((← Rule.here).unexpected expected)
  | remaining => return .tokens (← Rule.here).remaining
  | statement => return .fragment (.statement (← Grammar.statement limit))
  | block => return .fragment (.block (← Grammar.block limit))
  | program => return .program (← Grammar.program limit)

/-- The answer to a request, and the session behind it. -/
def ask (session : Session) (request : Request) : Except Stop (Reply × Session) :=
  match (request.rule session.options.maxNestingDepth).run session.cursor with
  | .error stop => .error stop
  | .ok (reply, cursor) => .ok (reply, { session with cursor })

/-- The answers to requests, one after another, and the session behind the last. -/
def askAll (session : Session) : List Request → Except Stop (List Reply × Session)
  | [] => .ok ([], session)
  | request :: more =>
    match session.ask request with
    | .error stop => .error stop
    | .ok (reply, next) =>
      match next.askAll more with
      | .error stop => .error stop
      | .ok (replies, last) => .ok (reply :: replies, last)

/-- What a request comes to, and the session behind it; an error leaves the session where it stops
the request. -/
def attempt (session : Session) (request : Request) : Except ParseError Reply × Session :=
  match session.ask request with
  | .error stop => (.error stop.error, { session with cursor := stop.cursor })
  | .ok (reply, next) => (.ok reply, next)

/-- What requests come to, one after another, even behind errors, and the session behind the
last. -/
def attemptAll (session : Session) : List Request → List (Except ParseError Reply) × Session
  | [] => ([], session)
  | request :: more =>
    let (result, next) := session.attempt request
    let (results, last) := next.attemptAll more
    (result :: results, last)

section Requests

variable {session next last : Session} {request : Request} {more : List Request} {stop : Stop}

/-- Requests are answered where the first one is, and those behind it where it leads. -/
theorem askAll_cons_eq_ok_iff {replies : List Reply} :
    session.askAll (request :: more) = .ok (replies, last) ↔
      ∃ reply next rest, session.ask request = .ok (reply, next) ∧
        next.askAll more = .ok (rest, last) ∧ replies = reply :: rest := by
  rw [askAll]
  constructor
  · intro asked
    split at asked
    · cases asked
    · next reply next first =>
      split at asked
      · cases asked
      · next rest last behind =>
        cases asked
        exact ⟨reply, next, rest, first, behind, rfl⟩
  · rintro ⟨reply, next, rest, first, behind, rfl⟩
    simp only [first, behind]

/-- Requests are refused where the first one is, or one behind it. -/
theorem askAll_cons_eq_error_iff :
    session.askAll (request :: more) = .error stop ↔ session.ask request = .error stop ∨
      ∃ reply next, session.ask request = .ok (reply, next) ∧
        next.askAll more = .error stop := by
  rw [askAll]
  constructor
  · intro refused
    split at refused
    · next first =>
      cases refused
      exact .inl first
    · next reply next first =>
      split at refused
      · next behind =>
        cases refused
        exact .inr ⟨reply, next, first, behind⟩
      · cases refused
  · rintro (first | ⟨reply, next, first, behind⟩)
    · simp only [first]
    · simp only [first, behind]

theorem attempt_of_ok {reply : Reply} (answered : session.ask request = .ok (reply, next)) :
    session.attempt request = (.ok reply, next) := by
  rw [attempt, answered]

theorem attempt_of_error (refused : session.ask request = .error stop) :
    session.attempt request = (.error stop.error, { session with cursor := stop.cursor }) := by
  rw [attempt, refused]

/-- Requests behind the first one are attempted where it leads. -/
theorem attemptAll_cons {result : Except ParseError Reply}
    (first : session.attempt request = (result, next)) :
    session.attemptAll (request :: more) =
      (result :: (next.attemptAll more).1, (next.attemptAll more).2) := by
  rw [attemptAll, first]

end Requests

end Session

end BlockLanguage
