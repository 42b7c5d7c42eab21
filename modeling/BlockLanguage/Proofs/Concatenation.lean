/-
**Two source texts of blocks, one below the other.**

With a line feed between them, two texts that spell blocks spell the one block and then the other.
Behind a block, what a second text is refused for is found in it as if it stood alone, only further
down. What the first text is refused for before its end is found there whatever stands below it.

* `block_refused_behind`: a block is refused where it is refused behind statements that are read.
* `alike_lower`, `alike_before`: the tokens of each text among those of both.
* `Block.parse_append_newline`: source texts.
-/

import BlockLanguage.Proofs.Faults
import BlockLanguage.Proofs.Lines
import BlockLanguage.Proofs.Suffix
import BlockLanguage.Proofs.WholeInput

namespace BlockLanguage

/-- The error in a text further down, behind so many tokens. -/
def ParseError.below (tokens lines : Nat) (error : ParseError) : ParseError :=
  { error with position := error.position + tokens, span := error.span.lower lines }

/-! ### Blocks behind statements -/

namespace Grammar

variable {limit : Nat} {first second : Cursor} {body : Block} {stop : Stop}

section Behind

variable (marked : first.Marked) (reads : first.Reads (Block.lexemes body) second)
  (within : Block.depth body ≤ limit)
include marked reads within

/-- A block that is refused is refused as well where it goes on behind statements. -/
theorem block_refused_behind (refused : (block limit).run second = .error stop) :
    (block limit).run first = .error stop := by
  induction body generalizing first with
  | nil =>
    rw [Block.lexemes, Cursor.reads_nil_iff] at reads
    rw [← reads]
    exact refused
  | cons s more ih =>
    rw [Block.lexemes] at reads
    rw [Block.depth, Nat.max_le] at within
    obtain ⟨rest, readsFirst, readsMore⟩ := Cursor.reads_append_iff.mp reads
    have read := (statement_eq_ok_iff marked).mpr ⟨readsFirst, within.1⟩
    have behind := ih (readsFirst.marked marked) readsMore within.2
    exact blockWith_eq_error_iff.mpr
      ⟨blockGoesOn_of_statement readsFirst, .inr ⟨s, rest, read, behind⟩⟩

/-- A block that is read is read as well where it goes on behind statements. -/
theorem block_read_behind {more : Block} {last : Cursor}
    (read : (block limit).run second = .ok (more, last)) :
    (block limit).run first = .ok (body ++ more, last) := by
  obtain ⟨readsMore, withinMore, ends⟩ := (block_eq_ok_iff (reads.marked marked)).mp read
  refine (block_eq_ok_iff marked).mpr ⟨?_, ?_, ends⟩
  · rw [Block.lexemes_append]
    exact reads.trans readsMore
  · rw [Block.depth_le_iff] at within withinMore ⊢
    exact List.forall_mem_append.mpr ⟨within, withinMore⟩

/-- A whole input that is no block is none either behind statements. -/
theorem whole_block_refused_behind (refused : (whole (block limit)).run second = .error stop) :
    (whole (block limit)).run first = .error stop := by
  rcases Rule.run_bind_eq_error_iff.mp refused with here | ⟨more, last, read, refused⟩
  · exact Rule.run_bind_of_error (block_refused_behind marked reads within here)
  · rw [whole, Rule.run_bind_of_ok (block_read_behind marked reads within read)]
    rcases Rule.run_bind_eq_error_iff.mp refused with here | ⟨_, _, _, none⟩
    · exact Rule.run_bind_of_error here
    · cases none

end Behind

end Grammar

/-- No block is refused for a name that is defined twice. -/
theorem BlockFault.cause_ne {limit levels : Nat} {first : Cursor} {error : ParseError}
    (fault : BlockFault limit levels first error) (name : String) :
    error.cause ≠ .duplicateInstruction name := by
  intro repeats
  have other := fault.refusesName_eq_false
  rw [repeats] at other
  cases other

/-! ### The tokens of both texts -/

/-- The tokens of a text are open ones and a mark. -/
theorem exists_tokenize_eq (source : String) :
    ∃ words mark, tokenize source = words ++ [mark] ∧
      (∀ token ∈ words, token.isEndOfInput = false) ∧ mark.isEndOfInput = true := by
  obtain ⟨words, mark, eq, each, -⟩ := Segment.exists_tokens_eq .start (segments source.toList)
  exact ⟨words, _, eq, fun token member => (each token member).2, Token.isEndOfInput_endOfInput _⟩

/-- Open tokens before a mark are all that is ahead at their front. -/
theorem Cursor.ahead_ofTokens {words : List Token} {mark : Token}
    (opened : ∀ token ∈ words, token.isEndOfInput = false) (closes : mark.isEndOfInput = true) :
    (ofTokens (words ++ [mark])).live = words ∧ (ofTokens (words ++ [mark])).sentinel = mark := by
  have ahead := (remaining_ofTokens _).trans (Token.complete_concat words closes)
  obtain ⟨live, sentinel, -⟩ := eq_of_remaining_eq ahead opened closes
  exact ⟨live, sentinel⟩

section Both

variable {words words' : List Token} {mark mark' : Token} (lines : Nat)
  (opened : ∀ token ∈ words, token.isEndOfInput = false) (closes : mark.isEndOfInput = true)
  (opened' : ∀ token ∈ words', token.isEndOfInput = false) (closes' : mark'.isEndOfInput = true)
include opened opened' closes'

/-- Before the tokens of both texts all of them are ahead, with the mark of the second. -/
theorem Cursor.ahead_both :
    (ofTokens (words ++ (words' ++ [mark']).map (Token.lower lines))).live =
        words ++ words'.map (Token.lower lines) ∧
      (ofTokens (words ++ (words' ++ [mark']).map (Token.lower lines))).sentinel =
        mark'.lower lines := by
  have openedBelow : ∀ token ∈ words ++ words'.map (Token.lower lines),
      token.isEndOfInput = false := by
    refine List.forall_mem_append.mpr ⟨opened, fun token member => ?_⟩
    obtain ⟨above, inside, rfl⟩ := List.mem_map.mp member
    exact opened' above inside
  rw [List.map_append, List.map_singleton, ← List.append_assoc]
  exact ahead_ofTokens openedBelow closes'

/-- Behind the tokens of the first text stands a cursor that is alike to the one before the second
text alone, only further down. -/
theorem Cursor.alike_lower (bound : Nat) :
    ∃ second, (ofTokens (words ++ (words' ++ [mark']).map (Token.lower lines))).Passes words
        second ∧
      (ofTokens (words' ++ [mark'])).Alike
        ⟨fun above below => above.lower lines = below, bound, words.length⟩ second := by
  obtain ⟨live, sentinel⟩ := ahead_both lines opened opened' closes'
  obtain ⟨liveAlone, sentinelAlone⟩ := ahead_ofTokens opened' closes'
  obtain ⟨second, passes, behind⟩ := Passes.exists_of_live live
  refine ⟨second, passes, ?_, fun index _ => ?_⟩
  · rw [passes.position, position_ofTokens, position_ofTokens]
  · have below : second.ahead = (ofTokens (words' ++ [mark'])).ahead.map (Token.lower lines) := by
      rw [ahead, ahead, behind, passes.sentinel, sentinel, liveAlone, sentinelAlone,
        List.map_append, List.map_singleton]
    rw [below, List.getElem?_map]
    cases (ofTokens (words' ++ [mark'])).ahead[index]? with
    | none => exact .none
    | some token => exact .some ⟨rfl, rfl, rfl⟩

include closes

/-- Up to the end of the first text its tokens are alike to those of both. -/
theorem Cursor.alike_before :
    (ofTokens (words ++ [mark])).Alike ⟨Eq, words.length, 0⟩
      (ofTokens (words ++ (words' ++ [mark']).map (Token.lower lines))) := by
  obtain ⟨live, -⟩ := ahead_both lines opened opened' closes'
  obtain ⟨liveAlone, -⟩ := ahead_ofTokens opened closes
  refine ⟨(position_ofTokens _).trans (position_ofTokens _).symm, fun index before => ?_⟩
  rw [position_ofTokens, Nat.zero_add] at before
  rw [ahead, ahead, live, liveAlone, List.append_assoc, List.getElem?_append_left before,
    List.getElem?_append_left before, List.getElem?_eq_getElem before]
  exact .some ⟨rfl, rfl, rfl⟩

end Both

/-! ### Source texts -/

/-- Open tokens before a mark are counted without it. -/
theorem Token.countP_open {words : List Token} {mark : Token}
    (opened : ∀ token ∈ words, token.isEndOfInput = false) (closes : mark.isEndOfInput = true) :
    (words ++ [mark]).countP (!·.isEndOfInput) = words.length := by
  have all : words.countP (!·.isEndOfInput) = words.length :=
    List.countP_eq_length.mpr fun token member => by simp [opened token member]
  rw [List.countP_append, List.countP_singleton, closes, all]
  rfl

namespace Block

section Sources

variable {options : Options} {first second : String} {body more : Block} {error : ParseError}

/-- Two texts of blocks are a text of both. -/
theorem parse_append (read : Block.parse options (tokenize first) = .ok body)
    (readMore : Block.parse options (tokenize second) = .ok more) :
    Block.parse options (tokenize (first ++ "\n" ++ second)) = .ok (body ++ more) := by
  obtain ⟨spelled, within⟩ := (parse_eq_ok_iff (plain_tokenize first)).mp read
  obtain ⟨spelledMore, withinMore⟩ := (parse_eq_ok_iff (plain_tokenize second)).mp readMore
  refine (parse_eq_ok_iff (plain_tokenize _)).mpr ⟨?_, ?_⟩
  · rw [lexemes_append_newline, lexemes_append, spelled, spelledMore]
  · rw [depth_le_iff] at within withinMore ⊢
    exact List.forall_mem_append.mpr ⟨within, withinMore⟩

/-- What the second text is refused for is found in it behind the block of the first. -/
theorem parse_refused_below (read : Block.parse options (tokenize first) = .ok body)
    (failed : Block.parse options (tokenize second) = .error error) :
    Block.parse options (tokenize (first ++ "\n" ++ second)) =
      .error (error.below ((tokenize first).countP (!·.isEndOfInput))
        (first.toList.count '\n' + 1)) := by
  obtain ⟨spelled, within⟩ := (parse_eq_ok_iff (plain_tokenize first)).mp read
  have marked := Cursor.marked_ofTokens (plain_tokenize (first ++ "\n" ++ second))
  obtain ⟨words, mark, tokens, opened, closes⟩ := exists_tokenize_eq first
  obtain ⟨words', mark', tokens', opened', closes'⟩ := exists_tokenize_eq second
  have none : Token.lexemes [mark] = [] := by simp [Token.lexemes, closes]
  rw [tokens, Token.lexemes_append, none, List.append_nil, Token.lexemes_eq_map opened] at spelled
  rw [tokens'] at failed
  rw [tokenize_append_newline, tokens, tokens', List.dropLast_concat] at marked ⊢
  rw [Token.countP_open opened closes]
  obtain ⟨stop, refused, rfl⟩ := Rule.parse_eq_error_iff.mp failed
  obtain ⟨behind, passes, alike⟩ := Cursor.alike_lower (first.toList.count '\n' + 1) opened opened'
    closes' stop.reach
  have agrees :=
    (Grammar.alike_whole (Grammar.alike_block options.maxNestingDepth)).agrees_of_alike alike
  obtain ⟨stop', refusedBelow, errors⟩ := agrees.refused refused (Nat.le_refl _)
  refine Rule.parse_eq_error_iff.mpr ⟨stop', ?_, errors.error_eq (Span.lower _)⟩
  exact Grammar.whole_block_refused_behind marked ⟨words, passes, spelled⟩ within refusedBelow

/-- What the first text is refused for before its end is found there whatever stands below. -/
theorem parse_refused_before (failed : Block.parse options (tokenize first) = .error error)
    (inside : ∃ token, (tokenize first)[error.position]? = some token ∧
      token.isEndOfInput = false) :
    Block.parse options (tokenize (first ++ "\n" ++ second)) = .error error := by
  obtain ⟨words, mark, tokens, opened, closes⟩ := exists_tokenize_eq first
  obtain ⟨words', mark', tokens', opened', closes'⟩ := exists_tokenize_eq second
  rw [tokens] at failed inside
  rw [tokenize_append_newline, tokens, tokens', List.dropLast_concat]
  obtain ⟨stop, refused, rfl⟩ := Rule.parse_eq_error_iff.mp failed
  have before : stop.error.position < words.length := by
    obtain ⟨token, found, isOpen⟩ := inside
    refine Nat.lt_of_not_le fun beyond => ?_
    rw [List.getElem?_append_right beyond] at found
    have member := List.mem_of_getElem? found
    rw [List.mem_singleton.mp member, closes] at isOpen
    cases isOpen
  -- No token behind the blamed one counts, as it would for a name that is defined twice.
  have fault := Grammar.failsBy_whole (Grammar.failsBy_block options.maxNestingDepth) _ _ refused
  have alike := Cursor.alike_before (first.toList.count '\n' + 1) opened closes opened' closes'
  have agrees :=
    (Grammar.alike_whole (Grammar.alike_block options.maxNestingDepth)).agrees_of_alike alike
  have reach := Stop.reach_eq fault.cause_ne
  obtain ⟨stop', refusedToo, errors⟩ := agrees.refused refused (reach ▸ before)
  exact Rule.parse_eq_error_iff.mpr ⟨stop', refusedToo, errors.error_eq id⟩

end Sources

/-- **Two texts of blocks, one below the other.** If both are blocks, they are the two blocks, one
behind the other. If only the second is refused, they are refused for the same, behind the tokens of
the first text and further down by its lines. If the first is refused before its end, they are
refused for the same. -/
theorem parse_append_newline (options : Options) (first second : String) :
    (∀ body more, Block.parse options (tokenize first) = .ok body →
      Block.parse options (tokenize second) = .ok more →
        Block.parse options (tokenize (first ++ "\n" ++ second)) = .ok (body ++ more)) ∧
    (∀ body error, Block.parse options (tokenize first) = .ok body →
      Block.parse options (tokenize second) = .error error →
        Block.parse options (tokenize (first ++ "\n" ++ second)) =
          .error (error.below ((tokenize first).countP (!·.isEndOfInput))
            (first.toList.count '\n' + 1))) ∧
    ∀ error token, Block.parse options (tokenize first) = .error error →
      (tokenize first)[error.position]? = some token → token.isEndOfInput = false →
        Block.parse options (tokenize (first ++ "\n" ++ second)) = .error error :=
  ⟨fun _ _ => parse_append, fun _ _ => parse_refused_below,
    fun _ token failed found isOpen => parse_refused_before failed ⟨token, found, isOpen⟩⟩

/-- Two calls are a block. END is refused below a call, where it is further down, and above one. -/
theorem parse_append_newline_end :
    ∃ name name' : Identifier, name.text = "move" ∧ name'.text = "turnleft" ∧
      Block.parse {} (tokenize ("move" ++ "\n" ++ "turnleft")) = .ok [.call name, .call name'] ∧
      Block.parse {} (tokenize ("move" ++ "\n" ++ "END")) =
        .error ⟨.unexpectedToken "end of input" "END", 1, ⟨2, 0⟩, none⟩ ∧
      Block.parse {} (tokenize ("END" ++ "\n" ++ "move")) =
        .error ⟨.unexpectedToken "end of input" "END", 0, ⟨1, 0⟩, none⟩ := by
  have call : ∀ name : Identifier, Token.lexemes (tokenize name.text) = [name.text] →
      Block.parse {} (tokenize name.text) = .ok [.call name] := by
    intro name spelled
    refine (parse_eq_ok_iff (plain_tokenize _)).mpr ⟨?_, ?_⟩
    · rw [spelled, lexemes, Statement.lexemes, lexemes, List.append_nil]
    · simp [depth, Statement.depth]
  have move := call ⟨"move", by decide +kernel⟩ (by decide +kernel)
  have turn := call ⟨"turnleft", by decide +kernel⟩ (by decide +kernel)
  have tokens : tokenize "END" = [Token.classify "END" ⟨1, 0⟩, Token.endOfInput ⟨1, 3⟩] := by
    decide +kernel
  have refused : Block.parse {} (tokenize "END") =
      .error ⟨.unexpectedToken "end of input" "END", 0, ⟨1, 0⟩, none⟩ := by
    have ends : Grammar.blockGoesOn (.ofTokens (tokenize "END")) = false := by
      rw [tokens]
      decide +kernel
    refine Rule.parse_eq_error_iff.mpr ?_
    rw [Grammar.whole, Grammar.block,
      Rule.run_bind_of_ok (Grammar.blockWith_eq_ok_nil_iff.mpr ⟨ends, rfl⟩), tokens]
    exact ⟨_, rfl, rfl⟩
  have both := (parse_append_newline {} "move" "turnleft").1 _ _ move turn
  have below := (parse_append_newline {} "move" "END").2.1 _ _ move refused
  have before := (parse_append_newline {} "END" "move").2.2 _ (Token.classify "END" ⟨1, 0⟩) refused
    (by rw [tokens]; rfl) (by decide +kernel)
  refine ⟨⟨"move", by decide +kernel⟩, ⟨"turnleft", by decide +kernel⟩, rfl, rfl, both, ?_, before⟩
  have count : (tokenize "move").countP (!·.isEndOfInput) = 1 := by decide +kernel
  rw [below, count]
  rfl

end Block

end BlockLanguage
