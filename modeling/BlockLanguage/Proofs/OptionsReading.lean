/-
**Options are read from every JSON object as its members say.**

* `ObjectText members text` — the texts of an object: its members in order, each with the name that
  its string denotes and with the text of its value, and blanks wherever JSON allows them.
* `noted` — what one member makes of the limit found before it: only a member of the limit's name
  counts, a second one is unsuitable, and its value has to be a whole number of 64 bits.
* `Reader.run_passed` — a value of no interest is passed over, however deep it is nested.
* `ofJson_object` — reading an object is noting its members one after another.
* **`ofJson_complete`** — the limit is read wherever it stands, and is 256 where it is missing; a
  second limit and one of more than 64 bits are refused; dumped options are read back.
-/

import BlockLanguage.Dump
import BlockLanguage.Options.Reader
import BlockLanguage.Proofs.JsonForms

namespace BlockLanguage.Options

open Json (Blanks Container Denotes Fault Item Padded Part Piece Skip Spelled Spells decimal items
  numberText_decimal quoted)

/-! ### The texts of an object -/

/-- The texts of a member: a string that denotes its name, a colon, and its value. -/
inductive MemberText : String × List Char → List Char → Prop
  | parts {name : String} {value inside front back : List Char} {pieces : List Piece}
      (spelled : Spelled inside pieces) (denotes : Denotes pieces name.toList)
      (named : Padded (quoted inside) front) (valued : Padded value back) :
      MemberText (name, value) (front ++ ':' :: back)

/-- The texts of members, with commas between them. -/
inductive MembersText : List (String × List Char) → List Char → Prop
  | last {member : String × List Char} {text : List Char} (only : MemberText member text) :
      MembersText [member] text
  | next {member : String × List Char} {more : List (String × List Char)} {text rest : List Char}
      (first : MemberText member text) (others : MembersText more rest) :
      MembersText (member :: more) (text ++ ',' :: rest)

/-- The texts of an object. -/
inductive ObjectText : List (String × List Char) → List Char → Prop
  | empty {inside text : List Char} (blank : Blanks inside)
      (padded : Padded ('\x7b' :: (inside ++ ['\x7d'])) text) : ObjectText [] text
  | members {members : List (String × List Char)} {inside text : List Char}
      (listed : MembersText members inside)
      (padded : Padded ('\x7b' :: (inside ++ ['\x7d'])) text) : ObjectText members text

/-- Whether a text is a value of JSON. -/
def IsValue (text : List Char) : Prop := ∃ its, Spells .value text its

/-! ### Runs of the reader -/

namespace Reader

/-- The state of a reader after items. -/
def run (reader : Reader) (its : List Item) : Except Fault Reader := its.foldlM step reader

theorem run_cons (reader : Reader) (item : Item) (its : List Item) :
    reader.run (item :: its) = (reader.step item >>= fun next => next.run its) :=
  List.foldlM_cons

theorem run_append (reader : Reader) (front back : List Item) :
    reader.run (front ++ back) = (reader.run front >>= fun next => next.run back) :=
  List.foldlM_append

/-- A step to a known state starts a run from there. -/
theorem run_cons_of_ok {reader next : Reader} {item : Item} (stepped : reader.step item = .ok next)
    (its : List Item) : reader.run (item :: its) = next.run its := by
  rw [run_cons, stepped]
  rfl

/-- A run to a known state goes on from there. -/
theorem run_append_of_ok {reader next : Reader} {front : List Item}
    (ran : reader.run front = .ok next) (back : List Item) :
    reader.run (front ++ back) = next.run back := by
  rw [run_append, ran]
  rfl

/-! ### Passing over a value -/

/-- Where a part begins while a value is passed over, if containers are open around it. -/
def entry (inside : List Container) : Part → Skip
  | .value | .item => ⟨.value, inside⟩
  | .items => ⟨.value, .array :: inside⟩
  | .member | .members => ⟨.key, .object :: inside⟩

/-- Where a part has been passed over. -/
def exit (inside : List Container) : Part → Skip
  | .value | .item => ⟨.commaOrClose, inside⟩
  | .items => ⟨.commaOrClose, .array :: inside⟩
  | .member | .members => ⟨.commaOrClose, .object :: inside⟩

/-- Behind the bracket that opens a container, its first part begins as any other does. -/
theorem run_orClose {part : Part} {text : List Char} {its : List Item}
    (spells : Spells part text its) (inside : List Container) (found : Option Nat) :
    (otherValue ⟨.valueOrClose, inside⟩ found).run its =
        (otherValue ⟨.value, inside⟩ found).run its ∧
      (otherValue ⟨.keyOrClose, inside⟩ found).run its =
        (otherValue ⟨.key, inside⟩ found).run its := by
  obtain ⟨first, more, rfl, noArray, noObject⟩ := spells.exists_first
  simp [run_cons, step, Skip.step, noArray, noObject]

/-- **Each part of a value is passed over**, and leaves open the containers around it. -/
theorem run_passed {part : Part} {text : List Char} {its : List Item}
    (spells : Spells part text its) (inside : List Container) (found : Option Nat) :
    (otherValue (entry inside part) found).run its =
      .ok (passed found (exit inside part)) := by
  induction spells generalizing inside with
  | word listed => rfl
  | number written => rfl
  | string spelled => rfl
  | emptyArray blank =>
    rw [run_cons_of_ok rfl]
    rfl
  | array items ih =>
    have front := (run_orClose items (.array :: inside) found).1.trans (ih inside)
    refine (run_cons_of_ok rfl _).trans ?_
    exact run_append_of_ok front _
  | emptyObject blank =>
    rw [run_cons_of_ok rfl]
    rfl
  | object members ih =>
    have front := (run_orClose members (.object :: inside) found).2.trans (ih inside)
    refine (run_cons_of_ok rfl _).trans ?_
    exact run_append_of_ok front _
  | item value padded ih => exact ih inside
  | lastItem last ih => exact ih (.array :: inside)
  | nextItem first rest ihFirst ihRest =>
    refine (run_append_of_ok (ihFirst (.array :: inside)) _).trans ?_
    exact (run_cons_of_ok rfl _).trans (ihRest inside)
  | member spelled padded value ih =>
    rw [run_cons_of_ok rfl, run_cons_of_ok rfl]
    exact ih (.object :: inside)
  | lastMember last ih => exact ih inside
  | nextMember first rest ihFirst ihRest =>
    refine (run_append_of_ok (ihFirst inside) _).trans ?_
    exact (run_cons_of_ok rfl _).trans (ihRest inside)

end Reader

/-! ### Members, one after another -/

/-- What a member makes of the limit found before it. -/
def noted (found : Option Nat) (member : String × List Char) : Except Fault (Option Nat) :=
  if member.1 = limitKey then
    if found.isSome then .error .unsuitable
    else (Reader.limit ((items member.2).headD .unknown)).map some
  else .ok found

/-- Where a limit is wanted, a number is the whole value, and anything else is refused at once. -/
theorem run_limitValue {value : List Char} {its : List Item} (spells : Spells .value value its) :
    Reader.limitValue.run its =
      ((Reader.limit (its.headD .unknown)).map some).map .commaOrClose := by
  cases spells with
  | @number text number written =>
    change ((Reader.limit (.number number)).map _ >>= _) =
      ((Reader.limit (.number number)).map some).map _
    cases Reader.limit (.number number) <;> rfl
  | word | string | emptyArray | array | emptyObject | object => rfl

/-- A member is read as its name and its value say. -/
theorem MemberText.exists_run {member : String × List Char} {text : List Char}
    (written : MemberText member text) (valid : IsValue member.2) :
    ∃ its, Spells .member text its ∧
      ∀ found, (Reader.key found).run its = (noted found member).map .commaOrClose := by
  obtain @⟨name, value, inside, front, back, pieces, spelled, denotes, named, valued⟩ := written
  obtain ⟨its, spells⟩ := valid
  refine ⟨_, .member spelled named (.item spells valued), fun found => ?_⟩
  have stepped : (Reader.key found).step (.string pieces none) =
      if name = limitKey then if found.isSome then .error .unsuitable else .ok .limitColon
      else .ok (.otherColon found) := by
    rw [Reader.step, Reader.name, denotes.decode_eq]
    simp only [String.ofList_toList]
  unfold noted
  dsimp only
  rw [spells.items_eq, Reader.run_cons, stepped]
  split
  · split
    · rfl
    · change Reader.limitColon.run (.colon :: its) = _
      exact (Reader.run_cons_of_ok rfl its).trans (run_limitValue spells)
  · change (Reader.otherColon found).run (.colon :: its) = _
    exact (Reader.run_cons_of_ok rfl its).trans (Reader.run_passed spells [] found)

/-- Members are read one after another. -/
theorem MembersText.exists_run {members : List (String × List Char)} {text : List Char}
    (written : MembersText members text) (valid : ∀ member ∈ members, IsValue member.2) :
    ∃ its, Spells .members text its ∧
      ∀ found, (Reader.key found).run its = (members.foldlM noted found).map .commaOrClose := by
  induction written with
  | @last member text only =>
    obtain ⟨its, spells, ran⟩ := only.exists_run (valid _ List.mem_cons_self)
    refine ⟨its, .lastMember spells, fun found => ?_⟩
    rw [ran, List.foldlM_cons]
    cases noted found member <;> rfl
  | @next member more text rest first others ih =>
    obtain ⟨its, spells, ran⟩ := first.exists_run (valid _ List.mem_cons_self)
    obtain ⟨its', spells', ran'⟩ :=
      ih fun other behind => valid other (List.mem_cons_of_mem _ behind)
    refine ⟨_, .nextMember spells spells', fun found => ?_⟩
    rw [Reader.run_append, ran, List.foldlM_cons]
    cases noted found member with
    | error fault => rfl
    | ok here =>
      change (Reader.commaOrClose here).run (.comma :: its') = _
      exact (Reader.run_cons_of_ok rfl its').trans (ran' here)

/-- **Reading an object is noting its members one after another.** -/
theorem ofJson_object {members : List (String × List Char)} {text : String}
    (written : ObjectText members text.toList) (valid : ∀ member ∈ members, IsValue member.2) :
    ofJson text = (members.foldlM noted none).map Reader.options := by
  cases written with
  | @empty inside _ blank padded =>
    have read := (Spells.item (.emptyObject blank) padded).items_eq
    rw [ofJson, read]
    rfl
  | @members _ inside _ listed padded =>
    obtain ⟨its, spells, ran⟩ := listed.exists_run valid
    have read := (Spells.item (.object spells) padded).items_eq
    -- The first item is a name, so it is read as it is behind a comma.
    have opened : Reader.keyOrClose.run its = (Reader.key none).run its := by
      obtain ⟨first, more, rfl, -, noClose⟩ := spells.exists_first
      rw [Reader.run_cons, Reader.run_cons]
      simp [Reader.step]
    have inside : Reader.start.run (.openObject :: (its ++ [.closeObject])) =
        ((members.foldlM noted none).map Reader.commaOrClose >>= fun next =>
          next.run [.closeObject]) := by
      refine (Reader.run_cons_of_ok rfl _).trans ?_
      rw [Reader.run_append, opened, ran]
    rw [ofJson, read]
    change (Reader.start.run _ >>= Reader.finish) = _
    rw [inside]
    cases members.foldlM noted none <;> rfl

/-! ### Decimal literals -/

theorem isValue_decimal (n : Nat) : IsValue (decimal n) := ⟨_, .number (numberText_decimal n)⟩

/-- A limit that fits into 64 bits is noted, and a greater one is refused. -/
theorem noted_decimal (n : Nat) :
    (n < Nat.pow 2 64 → noted none (limitKey, decimal n) = .ok (some n)) ∧
      (Nat.pow 2 64 ≤ n → ∃ fault, noted none (limitKey, decimal n) = .error fault) := by
  have read : items (decimal n) = [.number ⟨false, decimal n, [], none⟩] :=
    (Spells.number (numberText_decimal n)).items_eq
  have value : Json.Number.valueOf (decimal n) = n := by
    rw [Json.decimal_eq, Json.Number.valueOf, Nat.ofDigitChars_ten_toDigits]
  constructor
  · intro fits
    simp [noted, read, Reader.limit, Json.Number.count, value, fits, Except.map]
  · intro great
    simp [noted, read, Reader.limit, Json.Number.count, value, Nat.not_lt.mpr great, Except.map]

/-! ### Dumped objects -/

theorem memberText_memberChars (name : String) (value : List Char) :
    MemberText (name, value) (Json.memberChars [] name value) := by
  rw [Json.memberChars, Json.toList_quote]
  exact .parts (Json.spelled_flatMap _) (Json.denotes_map _) (Padded.self _) (Padded.self _)

/-- The compact form of an object is a text of its members. -/
theorem objectText_obj (members : List (String × Json)) :
    ObjectText (members.map fun member => (member.1, member.2.text.toList))
      (Json.obj members).text.toList := by
  rw [Json.toList_text_obj]
  by_cases nonempty : members = []
  · subst nonempty
    exact .empty Json.blanks_nil (Padded.self _)
  have listed : MembersText (members.map fun member => (member.1, member.2.text.toList))
      ([','].intercalate
        (members.map fun member => Json.memberChars [] member.1 member.2.text.toList)) := by
    induction members with
    | nil => contradiction
    | cons member more ih =>
      have here := memberText_memberChars member.1 member.2.text.toList
      cases more with
      | nil =>
        rw [List.map_singleton, List.map_singleton, List.intercalate_singleton]
        exact .last here
      | cons second others =>
        rw [List.map_cons, List.map_cons, List.map_cons, List.map_cons,
          List.intercalate_cons_cons, List.append_assoc]
        exact .next here (ih (List.cons_ne_nil _ _))
  have written := ObjectText.members listed (Padded.self _)
  simpa [Json.enclosed] using written

/-! ### Every object, and every dump -/

/-- Members that are none of the limit, each with a value of JSON. -/
def Others (members : List (String × List Char)) : Prop :=
  ∀ member ∈ members, member.1 ≠ limitKey ∧ IsValue member.2

theorem Others.append {front behind : List (String × List Char)} (before : Others front)
    (after : Others behind) : Others (front ++ behind) :=
  List.forall_mem_append.mpr ⟨before, after⟩

theorem Others.foldlM_noted {members : List (String × List Char)} (others : Others members)
    (found : Option Nat) : members.foldlM noted found = .ok found := by
  induction members with
  | nil => rfl
  | cons member more ih =>
    obtain ⟨here, behind⟩ := List.forall_mem_cons.mp others
    rw [List.foldlM_cons, noted, if_neg here.1]
    exact ih behind

theorem Others.isValue {members : List (String × List Char)} (others : Others members) :
    ∀ member ∈ members, IsValue member.2 :=
  fun member listed => (others member listed).2

/-- Other members in front do not change what a limit makes of the members behind them. -/
theorem Others.foldlM_noted_append {members : List (String × List Char)} (others : Others members)
    (found : Option Nat) (more : List (String × List Char)) :
    (members ++ more).foldlM noted found = more.foldlM noted found := by
  rw [List.foldlM_append, others.foldlM_noted]
  rfl

/-- A limit that fits is what the members behind it find. -/
theorem foldlM_noted_cons_of_lt {n : Nat} (fits : n < Nat.pow 2 64) (more : List (String × List Char)) :
    ((limitKey, decimal n) :: more).foldlM noted none = more.foldlM noted (some n) := by
  rw [List.foldlM_cons, (noted_decimal n).1 fits]
  rfl

/-- Options are dumped as an object of one member, the limit in decimal digits. -/
theorem objectText_json (options : Options) :
    ObjectText [(limitKey, decimal options.maxNestingDepth)] options.json.text.toList := by
  have literal : (Json.num options.maxNestingDepth).text.toList =
      decimal options.maxNestingDepth := rfl
  rw [← literal]
  exact objectText_obj [(limitKey, .num options.maxNestingDepth)]

/-- Options of 64 bits are read back from both forms of their dump. -/
theorem ofJson_json {options : Options} (fits : options.maxNestingDepth < Nat.pow 2 64) :
    ofJson options.json.text = .ok options ∧ ofJson options.json.pretty = .ok options := by
  have read : ofJson options.json.text = .ok options := by
    rw [ofJson_object (objectText_json options) (List.forall_mem_singleton.mpr (isValue_decimal _)),
      foldlM_noted_cons_of_lt fits]
    rfl
  refine ⟨read, ?_⟩
  rw [← read, ofJson, ofJson, Json.items_pretty, Json.items_text]

/-- **Options are read from every JSON object as its members say.** -/
theorem ofJson_complete {front behind : List (String × List Char)} (before : Others front)
    (after : Others behind) :
    (∀ text, ObjectText (front ++ behind) text.toList → ofJson text = .ok ⟨256⟩) ∧
    (∀ n text, ObjectText (front ++ (limitKey, decimal n) :: behind) text.toList →
      (n < Nat.pow 2 64 → ofJson text = .ok ⟨n⟩) ∧
      (Nat.pow 2 64 ≤ n → ∃ fault, ofJson text = .error fault)) ∧
    (∀ n middle value text, n < Nat.pow 2 64 → Others middle → IsValue value →
      ObjectText (front ++ (limitKey, decimal n) :: (middle ++ (limitKey, value) :: behind))
        text.toList → ofJson text = .error .unsuitable) ∧
    (∀ options : Options, options.maxNestingDepth < Nat.pow 2 64 →
      ofJson options.json.text = .ok options ∧ ofJson options.json.pretty = .ok options) := by
  refine ⟨fun text written => ?_, fun n text written => ?_,
    fun n middle value text fits between valid written => ?_, fun options fits => ofJson_json fits⟩
  · rw [ofJson_object written (before.append after).isValue, (before.append after).foldlM_noted]
    rfl
  · have valid : ∀ member ∈ front ++ (limitKey, decimal n) :: behind, IsValue member.2 :=
      List.forall_mem_append.mpr ⟨before.isValue,
        List.forall_mem_cons.mpr ⟨isValue_decimal n, after.isValue⟩⟩
    rw [ofJson_object written valid, before.foldlM_noted_append]
    constructor
    · intro fits
      rw [foldlM_noted_cons_of_lt fits, after.foldlM_noted]
      rfl
    · intro great
      obtain ⟨fault, refused⟩ := (noted_decimal n).2 great
      refine ⟨fault, ?_⟩
      rw [List.foldlM_cons, refused]
      rfl
  · have behindFirst : ∀ member ∈ middle ++ (limitKey, value) :: behind, IsValue member.2 :=
      List.forall_mem_append.mpr ⟨between.isValue,
        List.forall_mem_cons.mpr ⟨valid, after.isValue⟩⟩
    have allValid : ∀ member ∈
        front ++ (limitKey, decimal n) :: (middle ++ (limitKey, value) :: behind),
        IsValue member.2 :=
      List.forall_mem_append.mpr ⟨before.isValue,
        List.forall_mem_cons.mpr ⟨isValue_decimal n, behindFirst⟩⟩
    have again : noted (some n) (limitKey, value) = .error .unsuitable := rfl
    rw [ofJson_object written allValid, before.foldlM_noted_append, foldlM_noted_cons_of_lt fits,
      between.foldlM_noted_append, List.foldlM_cons, again]
    rfl

/-- A limit with an escaped name behind another member, one of 65 bits, a second one, and a dump. -/
theorem ofJson_complete_escaped :
    ofJson "\x7b\"a\":[null,2] ,\"\\u006Dax_nesting_depth\": 7\x7d" = .ok ⟨7⟩ ∧
      (∃ fault, ofJson "\x7b\"max_nesting_depth\":18446744073709551616\x7d" = .error fault) ∧
      ofJson "\x7b\"max_nesting_depth\":7,\"max_nesting_depth\":null\x7d" = .error .unsuitable ∧
      ofJson (Options.json ⟨8⟩).pretty = .ok ⟨8⟩ := by
  have null : Spells .value ['n', 'u', 'l', 'l'] [.word] := .word (by decide)
  have nested : IsValue ['[', 'n', 'u', 'l', 'l', ',', '2', ']'] :=
    ⟨_, .array (.nextItem (.item null (Padded.self _))
      (.lastItem (.item (.number (numberText_decimal 2)) (Padded.self _))))⟩
  have before : Others [("a", ['[', 'n', 'u', 'l', 'l', ',', '2', ']'])] :=
    List.forall_mem_singleton.mpr ⟨by decide, nested⟩
  have none : Others [] := List.forall_mem_nil _
  have digits : Json.UnitText ['0', '0', '6', 'D'] (16 * (16 * (16 * 0 + 0) + 6) + 13) :=
    .digits ⟨by decide, .inl rfl⟩ ⟨by decide, .inl rfl⟩ ⟨by decide, .inl rfl⟩ ⟨by decide, .inr rfl⟩
  have name : Spelled "\\u006Dax_nesting_depth".toList
      (.unit 'm'.toNat :: "ax_nesting_depth".toList.map Json.piece) :=
    .unit digits (Json.spelled_flatMap "ax_nesting_depth".toList)
  have escaped : ObjectText [("a", ['[', 'n', 'u', 'l', 'l', ',', '2', ']']), (limitKey, decimal 7)]
      "\x7b\"a\":[null,2] ,\"\\u006Dax_nesting_depth\": 7\x7d".toList :=
    .members
      (.next (.parts (Json.spelled_flatMap ['a']) (Json.denotes_map ['a']) (Padded.self _)
          ⟨[], [' '], Json.blanks_nil, by simp [Blanks], rfl⟩)
        (.last (.parts name (.unit (by decide) (Json.denotes_map _)) (Padded.self _)
          ⟨[' '], [], by simp [Blanks], Json.blanks_nil, rfl⟩)))
      (Padded.self _)
  refine ⟨((ofJson_complete before none).2.1 7 _ escaped).1 (by decide), ?_, ?_, ?_⟩
  · exact ((ofJson_complete none none).2.1 18446744073709551616 _
      (objectText_obj [(limitKey, .num 18446744073709551616)])).2 (by decide)
  · exact (ofJson_complete none none).2.2.1 7 [] ['n', 'u', 'l', 'l'] _ (by decide) none ⟨_, null⟩
      (objectText_obj [(limitKey, .num 7), (limitKey, .null)])
  · exact ((ofJson_complete none none).2.2.2 ⟨8⟩ (by decide)).2

end BlockLanguage.Options
