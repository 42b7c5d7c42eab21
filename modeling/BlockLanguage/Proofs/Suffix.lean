/-
**A session is a run over what remains.**

Wherever its requests have led it, a session has a rest of the completed tokens ahead, and answers
from there on as a fresh session over that rest does: with the same replies, and with the same
errors, in which only the indices of tokens count from another start. Nothing else of what has been
asked before matters; in particular the whole nesting limit is left again. The same holds of the
machine, which keeps count of its levels.

* `run_further`: a local rule does the same at a cursor further on.
* `ask_further`: so does every request.
* `eq_further_of_reaches`: a cursor is the one at the front of what remains, only further on.
* `ask_eq_fresh`: sessions.
* `perform_eq_fresh`: machines.
-/

import BlockLanguage.Proofs.Consumption
import BlockLanguage.Proofs.GrammarLocality
import BlockLanguage.Proofs.MachineRuns

namespace BlockLanguage

/-! ### Further on -/

/-- The cursor with the same tokens ahead, at an index larger by so much. -/
def Cursor.further (cursor : Cursor) (n : Nat) : Cursor :=
  { cursor with position := cursor.position + n }

/-- The error in a token at an index larger by so much. -/
def ParseError.further (error : ParseError) (n : Nat) : ParseError :=
  { error with position := error.position + n }

namespace Session

/-- The session with its cursor at an index larger by so much. -/
def further (session : Session) (n : Nat) : Session :=
  { session with cursor := session.cursor.further n }

/-- The reply further on: only an error tells where it was found. -/
def Reply.further (reply : Reply) (n : Nat) : Reply :=
  match reply with
  | error found => error (found.further n)
  | other => other

/-- The second result is the first one, with all indices of tokens larger by so much. -/
inductive Further (n : Nat) :
    Except Stop (Reply × Session) → Except Stop (Reply × Session) → Prop
  | answered (reply : Reply) (session : Session) :
    Further n (.ok (reply, session)) (.ok (reply.further n, session.further n))
  | refused {stop stop' : Stop} (error : stop'.error = stop.error.further n)
      (stands : stop'.cursor.position = stop.cursor.position + n) :
    Further n (.error stop) (.error stop')

end Session

namespace Cursor

variable (cursor : Cursor) (n : Nat)

theorem advance_further : (cursor.further n).advance = cursor.advance.further n := by
  obtain ⟨position, live, sentinel, beyond, live_open, sentinel_closes⟩ := cursor
  cases live with
  | nil => rfl
  | cons token more =>
    simp only [further, advance, mk.injEq, and_self, and_true]
    omega

theorem unexpected_further (expected : String) :
    (cursor.further n).unexpected expected = (cursor.unexpected expected).further n := by
  unfold unexpected
  show (if cursor.atEnd = true then _ else _) = _
  cases cursor.atEnd <;> rfl

/-- A cursor and the same one further on are alike, up to any bound. -/
theorem alike_further (bound : Nat) : cursor.Alike ⟨Eq, bound, n⟩ (cursor.further n) where
  position := rfl
  ahead index _ := by
    show Option.Rel _ cursor.ahead[index]? cursor.ahead[index]?
    cases cursor.ahead[index]? with
    | none => exact .none
    | some token => exact .some ⟨rfl, rfl, rfl⟩

end Cursor

/-! ### Local rules -/

namespace Rule

variable {α : Type} {rule : Rule α} (alike : ∀ likeness, rule.Alike likeness rule)
  {cursor : Cursor} (n : Nat)
include alike

/-- What a local rule reads, it reads further on too, and gets to the same place. -/
theorem run_further_of_ok {value : α} {rest : Cursor}
    (read : rule.run cursor = .ok (value, rest)) :
    rule.run (cursor.further n) = .ok (value, rest.further n) := by
  have agrees := (alike _).agrees_of_alike (cursor.alike_further n (rest.position + 1))
  obtain ⟨rest', read', alikeRest⟩ := agrees.read read (Nat.lt_succ_self _)
  obtain ⟨passed, passes⟩ := rule.forward read
  obtain ⟨passed', passes'⟩ := rule.forward read'
  -- Both runs have passed equally many tokens of the same ones.
  have sameLive : passed ++ rest.live = passed' ++ rest'.live :=
    passes.live.symm.trans passes'.live
  have sameLength : passed.length = passed'.length := by
    have position : rest'.position = rest.position + n := alikeRest.position
    have start : (cursor.further n).position = cursor.position + n := rfl
    rw [passes.position, passes'.position, start] at position
    omega
  have same : rest' = rest.further n := by
    obtain ⟨-, live⟩ := List.append_inj sameLive sameLength
    have sentinel := passes'.sentinel.trans passes.sentinel.symm
    have beyond := passes'.beyond.trans passes.beyond.symm
    have position : rest'.position = rest.position + n := alikeRest.position
    cases rest
    cases rest'
    simp only at live sentinel beyond position
    subst live sentinel beyond position
    rfl
  rw [read', same]

/-- Where a local rule refuses, it does so further on too. -/
theorem run_further_of_error {stop : Stop} (refused : rule.run cursor = .error stop) :
    ∃ stop', rule.run (cursor.further n) = .error stop' ∧
      stop'.error = stop.error.further n ∧
        stop'.cursor.position = stop.cursor.position + n := by
  have agrees := (alike _).agrees_of_alike (cursor.alike_further n stop.reach)
  obtain ⟨stop', refused', errors⟩ := agrees.refused refused (Nat.le_refl _)
  exact ⟨stop', refused', errors.error_eq id, errors.stands⟩

end Rule

/-! ### Requests -/

namespace Session

variable {session : Session} {request : Request} (n : Nat)

theorem ask_of_ok {reply : Reply} {rest : Cursor}
    (read : (request.rule session.options.maxNestingDepth).run session.cursor = .ok (reply, rest)) :
    session.ask request = .ok (reply, { session with cursor := rest }) := by
  rw [ask, read]

theorem ask_of_error {stop : Stop}
    (refused : (request.rule session.options.maxNestingDepth).run session.cursor = .error stop) :
    session.ask request = .error stop := by
  rw [ask, refused]

/-- A request for what a local rule reads is answered alike further on, if the reply does not tell
where it was found. -/
theorem ask_further_of_alike {α : Type} {rule : Rule α} {wrap : α → Reply}
    (alike : ∀ likeness, rule.Alike likeness rule)
    (answers : request.rule session.options.maxNestingDepth =
      rule >>= fun value => pure (wrap value))
    (unplaced : ∀ value, (wrap value).further n = wrap value) :
    Further n (session.ask request) ((session.further n).ask request) := by
  cases read : rule.run session.cursor with
  | error stop =>
    obtain ⟨stop', refused', error, stands⟩ := Rule.run_further_of_error alike n read
    rw [ask_of_error (answers ▸ Rule.run_bind_of_error read),
      @ask_of_error (session.further n) request stop' (answers ▸ Rule.run_bind_of_error refused')]
    exact .refused error stands
  | ok step =>
    obtain ⟨value, rest⟩ := step
    have read' := Rule.run_further_of_ok alike n read
    rw [ask_of_ok (answers ▸ Rule.run_bind_of_ok read),
      @ask_of_ok (session.further n) request _ _ (answers ▸ Rule.run_bind_of_ok read')]
    have answered := @Further.answered n (wrap value) { session with cursor := rest }
    rw [unplaced] at answered
    exact answered

/-- **Every request is answered alike further on.** -/
theorem ask_further : Further n (session.ask request) ((session.further n).ask request) := by
  cases request with
  | peek => exact .answered (.token session.cursor.front) session
  | advance =>
    have answered := @Further.answered n (.token session.cursor.front)
      { session with cursor := session.cursor.advance }
    unfold further at answered
    rw [← Cursor.advance_further] at answered
    exact answered
  | isAtEnd => exact .answered (.truth session.cursor.atEnd) session
  | checkKeyword lexeme =>
    exact .answered (.truth (Grammar.stands lexeme session.cursor)) session
  | matchKeyword lexeme =>
    exact ask_further_of_alike n (fun _ => Grammar.alike_optional lexeme) rfl fun _ => rfl
  | consumeKeyword lexeme =>
    exact ask_further_of_alike n (fun _ => Grammar.alike_keyword lexeme) rfl fun _ => rfl
  | consumeIdentifier =>
    exact ask_further_of_alike n (fun _ => Grammar.alike_identifier) rfl fun _ => rfl
  | consumeCondition =>
    exact ask_further_of_alike n (fun _ => Grammar.alike_condition) rfl fun _ => rfl
  | consumeClosingName name =>
    exact ask_further_of_alike n (fun _ => Grammar.alike_closingName name) rfl fun _ => rfl
  | expectEndOfInput =>
    exact ask_further_of_alike n (fun _ => Grammar.alike_endOfInput) rfl fun _ => rfl
  | unexpected expected =>
    have answered := @Further.answered n (.error (session.cursor.unexpected expected)) session
    rw [Reply.further, ← Cursor.unexpected_further] at answered
    exact answered
  | remaining => exact .answered (.tokens session.cursor.remaining) session
  | statement =>
    exact ask_further_of_alike n (fun _ => Grammar.alike_statement _) rfl fun _ => rfl
  | block => exact ask_further_of_alike n (fun _ => Grammar.alike_block _) rfl fun _ => rfl
  | program => exact ask_further_of_alike n (fun _ => Grammar.alike_program _) rfl fun _ => rfl

/-- What a request comes to further on. -/
def furtherResult (n : Nat) (result : Except ParseError Reply) : Except ParseError Reply :=
  (result.map (Reply.further · n)).mapError (ParseError.further · n)

/-- Every request comes to the same further on, and leads further by so much. -/
theorem attempt_further :
    ((session.further n).attempt request).1 = furtherResult n (session.attempt request).1 ∧
      ((session.further n).attempt request).2.position =
        (session.attempt request).2.position + n := by
  have further := @ask_further session request n
  generalize answer : session.ask request = step at further
  generalize answer' : (session.further n).ask request = step' at further
  cases further with
  | answered reply next =>
    rw [attempt_of_ok answer, attempt_of_ok answer']
    exact ⟨rfl, rfl⟩
  | refused error stands =>
    rw [attempt_of_error answer, attempt_of_error answer', error]
    exact ⟨rfl, stands⟩

end Session

/-! ### What remains -/

namespace Token

/-- Completed tokens end in a mark. -/
theorem exists_complete_eq_concat (tokens : List Token) :
    ∃ before mark, complete tokens = before ++ [mark] ∧ mark.isEndOfInput = true := by
  unfold complete
  split
  · exact ⟨[], _, rfl, isEndOfInput_endOfInput _⟩
  · next last found =>
    split
    · next marked =>
      obtain ⟨before, eq⟩ := List.getLast?_eq_some_iff.mp found
      exact ⟨before, last, eq, marked⟩
    · exact ⟨tokens, _, rfl, isEndOfInput_endOfInput _⟩

/-- Tokens that end in a mark are complete. -/
theorem complete_concat (before : List Token) {mark : Token} (closes : mark.isEndOfInput = true) :
    complete (before ++ [mark]) = before ++ [mark] := by
  rw [complete, List.getLast?_concat]
  exact if_pos closes

end Token

namespace Cursor

variable {tokens : List Token} {cursor : Cursor} (reached : (ofTokens tokens).Reaches cursor)
include reached

/-- What remains is complete, since it ends where the completed tokens do. -/
theorem complete_remaining : Token.complete cursor.remaining = cursor.remaining := by
  obtain ⟨passed, complete, -⟩ := complete_eq_of_reaches reached
  obtain ⟨before, mark, ends, closes⟩ := Token.exists_complete_eq_concat tokens
  rcases List.eq_nil_or_concat cursor.remaining with none | ⟨front, last, eq⟩
  · simp [remaining] at none
  · have same : mark = last := by
      rw [complete, eq, List.concat_eq_append, ← List.append_assoc] at ends
      exact (List.singleton_inj.mp (List.append_inj_right' ends rfl)).symm
    rw [eq, List.concat_eq_append]
    exact Token.complete_concat front (same ▸ closes)

/-- **A cursor is the one at the front of what remains**, only further on. -/
theorem eq_further_of_reaches : cursor = (ofTokens cursor.remaining).further cursor.position := by
  have ahead := (remaining_ofTokens cursor.remaining).trans (complete_remaining reached)
  obtain ⟨live, sentinel, beyond⟩ :=
    eq_of_remaining_eq ahead cursor.live_open cursor.sentinel_closes
  have position := position_ofTokens cursor.remaining
  generalize ofTokens cursor.remaining = fresh at live sentinel beyond position
  cases cursor
  cases fresh
  simp only at live sentinel beyond position
  subst live sentinel beyond position
  simp only [further, Nat.zero_add]

theorem remaining_eq_drop : cursor.remaining = (Token.complete tokens).drop cursor.position := by
  obtain ⟨passed, complete, position⟩ := complete_eq_of_reaches reached
  rw [complete, position, List.drop_left]

/-- No cursor is behind the first mark. -/
theorem position_le_firstMark : cursor.position ≤ Token.firstMark tokens := by
  obtain ⟨passed, passes⟩ := reached
  rw [firstMark_eq_length, passes.live, passes.position, position_ofTokens, List.length_append,
    Nat.zero_add]
  exact Nat.le_add_right _ _

end Cursor

/-! ### Sessions -/

namespace Session

variable {options : Options} {tokens : List Token} {requests : List Request}
  {replies : List Reply} {first session last : Session}

theorem askAll_singleton {request : Request} {reply : Reply}
    (answered : first.ask request = .ok (reply, last)) :
    first.askAll [request] = .ok ([reply], last) :=
  askAll_cons_eq_ok_iff.mpr ⟨reply, last, [], answered, rfl, rfl⟩

/-- Requests that are answered one after another are answered in two parts. -/
theorem askAll_append {earlier later : List Request}
    (asked : first.askAll (earlier ++ later) = .ok (replies, last)) :
    ∃ before between behind, first.askAll earlier = .ok (before, between) ∧
      between.askAll later = .ok (behind, last) := by
  induction earlier generalizing first replies with
  | nil => exact ⟨[], first, replies, rfl, asked⟩
  | cons request more ih =>
    obtain ⟨reply, next, rest, first, behind, rfl⟩ := askAll_cons_eq_ok_iff.mp asked
    obtain ⟨before, between, behind, askedMore, askedLater⟩ := ih behind
    exact ⟨reply :: before, between, behind,
      askAll_cons_eq_ok_iff.mpr ⟨reply, next, before, first, askedMore, rfl⟩, askedLater⟩

/-- A session is the fresh one over what remains, only further on. -/
theorem eq_further_of_askAll
    (asked : (start options tokens).askAll requests = .ok (replies, session)) :
    session = (start options session.cursor.remaining).further session.position := by
  obtain ⟨reached, kept⟩ := askAll_reaches asked
  have cursor := Cursor.eq_further_of_reaches reached
  cases session
  exact congr (congrArg Session.mk cursor) kept

/-- **A session is a run over what remains.** It has come forward with every request and not past
the first mark of the end, the tokens from there on remain, and each further request is answered as
by a fresh session over these. -/
theorem ask_eq_fresh (asked : (start options tokens).askAll requests = .ok (replies, session)) :
    (∀ earlier later, earlier ++ later = requests → ∃ before between,
      (start options tokens).askAll earlier = .ok (before, between) ∧
        between.position ≤ session.position) ∧
    session.position ≤ Token.firstMark tokens ∧
    ∃ remaining, remaining = (Token.complete tokens).drop session.position ∧ remaining ≠ [] ∧
      session.ask .remaining = .ok (.tokens remaining, session) ∧
      ∀ request, Further session.position ((start options remaining).ask request)
        (session.ask request) := by
  obtain ⟨reached, -⟩ := askAll_reaches asked
  refine ⟨fun earlier later parts => ?_, Cursor.position_le_firstMark reached,
    session.cursor.remaining, Cursor.remaining_eq_drop reached, by simp [Cursor.remaining], rfl,
    fun request => ?_⟩
  · subst parts
    obtain ⟨before, between, behind, askedEarlier, askedLater⟩ := askAll_append asked
    obtain ⟨⟨passed, passes⟩, -⟩ := askAll_reaches askedLater
    refine ⟨before, between, askedEarlier, ?_⟩
    rw [position, position, passes.position]
    exact Nat.le_add_right _ _
  · have answered := @ask_further (start options session.cursor.remaining) request session.position
    rw [← eq_further_of_askAll asked] at answered
    exact answered

/-- Behind a WHILE as deep as the limit allows a second one is read, as in a fresh session over the
five tokens that remain. -/
theorem ask_eq_fresh_second_while :
    ∃ tokens replies session last,
      tokens = Token.ofLexemes ["WHILE", "true", "DO", "move", "END", "WHILE",
        "WHILE", "random", "DO", "END", "WHILE"] ∧
      (start ⟨1⟩ tokens).askAll [.statement] = .ok (replies, session) ∧ session.position = 6 ∧
      session.ask .statement = .ok (.fragment (.statement (.whileDo .random [])), last) ∧
      last.position = 11 := by
  obtain ⟨tokens, spelled⟩ : ∃ tokens, tokens = Token.ofLexemes ["WHILE", "true", "DO", "move",
    "END", "WHILE", "WHILE", "random", "DO", "END", "WHILE"] := ⟨_, rfl⟩
  have plain : Token.Plain tokens := by
    rw [spelled]
    decide +kernel
  have plainRest : Token.Plain ((Token.complete tokens).drop 6) := by
    rw [spelled]
    decide +kernel
  obtain ⟨session, answered, there⟩ :=
    (@ask_statement_iff (start ⟨1⟩ tokens) tokens 1 6 (.refl _) (Cursor.marked_ofTokens plain) rfl
      (.whileDo .always [.call ⟨"move", by decide +kernel⟩])).mpr
      ⟨by simp [Statement.depth, Block.depth], by rw [spelled]; decide +kernel,
        by rw [spelled]; decide +kernel⟩
  obtain ⟨fresh, answeredFresh, thereFresh⟩ :=
    (@ask_statement_iff (start ⟨1⟩ ((Token.complete tokens).drop 6)) _ 1 5 (.refl _)
      (Cursor.marked_ofTokens plainRest) rfl (.whileDo .random [])).mpr
      ⟨by simp [Statement.depth, Block.depth], by rw [spelled]; decide +kernel,
        by rw [spelled]; decide +kernel⟩
  obtain ⟨-, -, remaining, rest, -, -, same⟩ := ask_eq_fresh (askAll_singleton answered)
  have further := same .statement
  rw [rest, there, answeredFresh] at further
  generalize result : session.ask .statement = reply at further
  cases further
  refine ⟨tokens, _, session, _, spelled, askAll_singleton answered, there, result, ?_⟩
  exact congrArg (· + 6) thereFresh

end Session

/-! ### Machines -/

namespace Machine

variable {options : Options} {tokens : List Token} {requests : List Session.Request}
  {replies : List Session.Reply} {machine : Machine} {fuel : Nat}
  (enough : (Token.complete tokens).length + options.maxNestingDepth < fuel)
  (served : Gives (serve fuel requests) (start options tokens) (replies.map .ok) machine)
include enough served

/-- Where a machine has answered all requests, so has a session, and the machine is at its
index. -/
theorem askAll_of_serve :
    ∃ session, machine = ⟨Token.complete tokens, session.position, 0, options⟩ ∧
      (Session.start options tokens).askAll requests = .ok (replies, session) := by
  cases asked : (Session.start options tokens).askAll requests with
  | error stop =>
    obtain ⟨-, answers, -, later, after, -, -, gives, -⟩ :=
      (serve_askAll enough requests).2 stop asked
    have refused : Except.error stop.error ∈ replies.map Except.ok := by
      rw [(served.unique gives).1]
      exact List.mem_append_right _ List.mem_cons_self
    obtain ⟨reply, -, answered⟩ := List.mem_map.mp refused
    cases answered
  | ok result =>
    obtain ⟨answers, session⟩ := result
    obtain ⟨same, there⟩ := served.unique ((serve_askAll enough requests).1 answers session asked)
    rw [(List.map_inj_right fun _ _ => Except.ok.inj).mp same]
    exact ⟨session, there, rfl⟩

/-- **A machine goes on as a fresh one over what remains.** Behind requests that it has all
answered, it is outside of all levels and not past the first mark of the end, and comes with each
further request to what a machine comes to that is given the tokens from its index on, only further
on. -/
theorem perform_eq_fresh (request : Session.Request) :
    machine.depth = 0 ∧ machine.current ≤ Token.firstMark tokens ∧
    ∃ remaining, remaining = (Token.complete tokens).drop machine.current ∧ remaining ≠ [] ∧
      ∃ result position,
        Gives (perform fuel request).run (start options remaining) result
          { start options remaining with current := position } ∧
        Gives (perform fuel request).run machine (Session.furtherResult machine.current result)
          { machine with current := position + machine.current } := by
  obtain ⟨session, rfl, asked⟩ := askAll_of_serve enough served
  obtain ⟨reached, kept⟩ := Session.askAll_reaches asked
  obtain ⟨rounds, within⟩ := bounds_start enough
  have complete := Cursor.complete_remaining reached
  have drop := Cursor.remaining_eq_drop reached
  have enoughRest :
      (Token.complete session.cursor.remaining).length + options.maxNestingDepth < fuel := by
    rw [complete, drop, List.length_drop]
    omega
  obtain ⟨roundsRest, withinRest⟩ := bounds_start enoughRest
  obtain ⟨-, -, here⟩ :=
    gives_perform rfl rounds within kept (covers_start.of_reaches reached) request
  obtain ⟨-, -, fresh⟩ := gives_perform rfl roundsRest withinRest
    (Session.options_start options session.cursor.remaining) covers_start request
  rw [Session.cursor_start, atCursor_start] at fresh
  obtain ⟨result, position⟩ := @Session.attempt_further
    (Session.start options session.cursor.remaining) request session.position
  rw [← Session.eq_further_of_askAll asked] at result position
  refine ⟨rfl, Cursor.position_le_firstMark reached, session.cursor.remaining, drop,
    by simp [Cursor.remaining], _, _, fresh, ?_⟩
  show Gives _ _ _ ⟨Token.complete tokens, Session.position _ + session.position, 0, options⟩
  rw [← result, ← position]
  exact here

end Machine

end BlockLanguage
