import Kaleidoscope.Proofs.Scanner.Lexemes

/-!
# Sources read piece by piece

The tokens of a script of reads are those of the characters that it delivers
before its first end, however the reads are cut.  A scanner asks its source only
as long as every answer has been a character: after the first answer that is
nothing, the source is left alone, whatever it would still answer.
-/

namespace Kaleidoscope
namespace Source

/-- The bytes of the reads before the first that yields none or fails. -/
def delivered : List Read -> List UInt8
  | [] => []
  | .interrupted :: rest => delivered rest
  | .failure :: _ => []
  | .bytes [] :: _ => []
  | .bytes (byte :: bytes) :: rest => byte :: bytes ++ delivered rest

theorem charsOf_map_some_append (text : List Char) (answers : List (Option Char)) :
    charsOf (text.map some ++ answers) = text ++ charsOf answers := by
  induction text with
  | nil => rfl
  | cons c rest ih =>
      rw [List.map_cons, List.cons_append, charsOf, ih, List.cons_append]

theorem charsOf_ofReads (script : List Read) :
    charsOf (ofReads script).answers = (delivered script).map ofByte := by
  show charsOf (script.flatMap Read.answers) = _
  induction script with
  | nil => rfl
  | cons read rest ih =>
      rw [List.flatMap_cons]
      cases read with
      | interrupted => exact ih
      | failure => rfl
      | bytes content =>
          cases content with
          | nil => rfl
          | cons byte bytes =>
              have hanswers : (Read.bytes (byte :: bytes)).answers =
                  ((byte :: bytes).map ofByte).map some := by
                rw [List.map_map]
                rfl
              rw [hanswers, charsOf_map_some_append, ih, delivered, List.map_append]

theorem charsOf_ofString (text : String) : charsOf (ofString text).answers = text.toList :=
  charsOf_map_some text.toList

theorem charsOf_ofBytes (content : List UInt8) :
    charsOf (ofBytes content).answers = content.map ofByte := by
  rw [ofBytes, charsOf_ofReads]
  cases content with
  | nil => rfl
  | cons byte bytes => rw [delivered, delivered, List.append_nil]

end Source

namespace Cursor

/-!
# Asking a source
-/

def ask (cursor : Cursor) : Cursor where
  lookahead := cursor.source.next.1
  source := cursor.source.next.2
  pulled :=
    match cursor.source.next.1 with
    | some _ => cursor.pulled + 1
    | none => cursor.pulled

/-- The answers got on the way to another cursor; after nothing no more is asked. -/
inductive Asks : Cursor -> List (Option Char) -> Cursor -> Prop where
  | nothing (cursor : Cursor) : Asks cursor [] cursor
  | answer {cursor rest : Cursor} {answers : List (Option Char)} :
      cursor.lookahead ≠ none -> Asks cursor.ask answers rest ->
      Asks cursor (cursor.ask.lookahead :: answers) rest

theorem asks_append {cursor middle rest : Cursor} {answers others : List (Option Char)}
    (h : Asks cursor answers middle) (hrest : Asks middle others rest) :
    Asks cursor (answers ++ others) rest := by
  induction h with
  | nothing _ => exact hrest
  | answer hlook _ ih => exact Asks.answer hlook (ih hrest)

theorem asks_take {cursor rest : Cursor} {answers : List (Option Char)}
    (h : Asks cursor answers rest) : answers = cursor.source.take answers.length := by
  induction h with
  | nothing _ => rfl
  | answer _ _ ih => exact congrArg (_ :: ·) ih

theorem asks_of_end {cursor rest : Cursor} {answers : List (Option Char)}
    (hend : cursor.lookahead = none) (h : Asks cursor answers rest) :
    answers = [] ∧ rest = cursor := by
  cases h with
  | nothing _ => exact ⟨rfl, rfl⟩
  | answer hlook _ => exact absurd hend hlook

theorem asks_end {cursor rest : Cursor} {answers : List (Option Char)}
    (h : Asks cursor answers rest) :
    none ∉ answers.dropLast ∧ (none ∈ answers -> rest.lookahead = none) := by
  induction h with
  | nothing _ => exact ⟨List.not_mem_nil, fun hmem => absurd hmem List.not_mem_nil⟩
  | @answer cursor rest answers _ hrest ih =>
      by_cases hend : cursor.ask.lookahead = none
      · rcases asks_of_end hend hrest with ⟨hnil, hsame⟩
        rw [hnil, hsame]
        exact ⟨List.not_mem_nil, fun _ => hend⟩
      · constructor
        · cases answers with
          | nil => exact List.not_mem_nil
          | cons next answers =>
              rw [List.dropLast_cons_cons, List.mem_cons, not_or]
              exact ⟨fun hsame => hend hsame.symm, ih.left⟩
        · intro hmem
          rcases List.mem_cons.mp hmem with hsame | hmem
          · exact absurd hsame.symm hend
          · exact ih.right hmem

theorem asks_ne {cursor rest : Cursor} {answers : List (Option Char)}
    (hne : answers ≠ []) (h : Asks cursor answers rest) :
    rest.lookahead = none ∨ cursor.pulled < rest.pulled := by
  induction h with
  | nothing _ => exact absurd rfl hne
  | @answer cursor rest answers _ hrest ih =>
      cases hnext : cursor.source.next.1 with
      | none =>
          have hend : cursor.ask.lookahead = none := hnext
          rw [(asks_of_end hend hrest).right]
          exact Or.inl hend
      | some c =>
          have hpulled : cursor.ask.pulled = cursor.pulled + 1 := by
            simp only [ask, hnext]
          cases answers with
          | nil =>
              cases hrest with
              | nothing _ =>
                  right
                  omega
          | cons next answers =>
              rcases ih (List.cons_ne_nil _ _) with hend | hless
              · exact Or.inl hend
              · right
                omega

theorem asks_unique {cursor rest : Cursor} {answers others : List (Option Char)}
    (h : Asks cursor answers rest) (hother : Asks cursor others rest) :
    others = answers := by
  induction h generalizing others with
  | nothing cursor =>
      cases others with
      | nil => rfl
      | cons first others =>
          cases hother with
          | answer hlook hrest =>
              rcases asks_ne (List.cons_ne_nil _ _) (Asks.answer hlook hrest) with
                hend | hless
              · exact absurd hend hlook
              · exact absurd hless (Nat.lt_irrefl _)
  | @answer cursor rest answers hlook hrest ih =>
      cases hother with
      | nothing _ =>
          rcases asks_ne (List.cons_ne_nil _ _) (Asks.answer hlook hrest) with
            hend | hless
          · exact absurd hend hlook
          · exact absurd hless (Nat.lt_irrefl _)
      | answer _ hothers => rw [ih hothers]

theorem pullWhileFrom_asks (p : Char -> Bool) (first : Char) (pulled : Nat)
    (answers : List (Option Char)) :
    exists got, Asks ⟨some first, ⟨answers⟩, pulled⟩ got
      (pullWhileFrom p pulled answers).2 := by
  fun_induction pullWhileFrom p pulled answers generalizing first with
  | case1 | case2 => exact ⟨_, Asks.answer (Option.some_ne_none _) (Asks.nothing _)⟩
  | case3 pulled c rest hc run ih =>
      rcases ih c with ⟨got, hgot⟩
      exact ⟨_, Asks.answer (Option.some_ne_none _) hgot⟩
  | case4 => exact ⟨_, Asks.answer (Option.some_ne_none _) (Asks.nothing _)⟩

theorem skipLayoutFrom_asks (inComment : Bool) (c : Char) (pulled : Nat)
    (answers : List (Option Char)) :
    exists got, Asks ⟨some c, ⟨answers⟩, pulled⟩ got
      (skipLayoutFrom inComment c pulled answers) := by
  fun_induction skipLayoutFrom inComment c pulled answers with
  | case1 => exact ⟨_, Asks.nothing _⟩
  | case2 | case3 => exact ⟨_, Asks.answer (Option.some_ne_none _) (Asks.nothing _)⟩
  | case4 inComment c pulled inside hstep d rest ih =>
      rcases ih with ⟨got, hgot⟩
      exact ⟨_, Asks.answer (Option.some_ne_none _) hgot⟩

theorem skipLayout_asks (cursor : Cursor) :
    exists got, Asks cursor got cursor.skipLayout := by
  rcases cursor with ⟨_ | c, source, pulled⟩
  · exact ⟨_, Asks.nothing _⟩
  · exact skipLayoutFrom_asks false c pulled source.answers

theorem pullWhile_asks {cursor : Cursor} {c : Char} (h : cursor.lookahead = some c)
    (p : Char -> Bool) : exists got, Asks cursor got (cursor.pullWhile p).2 := by
  rcases cursor with ⟨lookahead, source, pulled⟩
  dsimp only at h
  rw [h]
  exact pullWhileFrom_asks p c pulled source.answers

end Cursor

namespace Scanner

def after : Nat -> Scanner -> Scanner
  | 0, scanner => scanner
  | count + 1, scanner => after count scanner.next.2

theorem next_asks (scanner : Scanner) :
    exists got, scanner.cursor.Asks got scanner.next.2.cursor := by
  rcases Cursor.skipLayout_asks scanner.cursor with ⟨skipped, hskipped⟩
  cases hlook : scanner.cursor.skipLayout.lookahead with
  | none =>
      simp only [next, hlook]
      exact ⟨skipped, hskipped⟩
  | some first =>
      rcases Cursor.pullWhile_asks hlook (Token.continues first) with ⟨pulled, hpulled⟩
      simp only [next, hlook]
      exact ⟨skipped ++ pulled, Cursor.asks_append hskipped hpulled⟩

theorem after_asks (count : Nat) (scanner : Scanner) :
    exists got, scanner.cursor.Asks got (scanner.after count).cursor := by
  induction count generalizing scanner with
  | zero => exact ⟨[], Cursor.Asks.nothing _⟩
  | succ count ih =>
      rcases next_asks scanner with ⟨first, hfirst⟩
      rcases ih scanner.next.2 with ⟨others, hothers⟩
      exact ⟨first ++ others, Cursor.asks_append hfirst hothers⟩

theorem next_of_end {scanner : Scanner} (h : scanner.cursor.lookahead = none) :
    scanner.next.2 = scanner := by
  have hskip : scanner.cursor.skipLayout = scanner.cursor := by
    rw [Cursor.skipLayout, h]
  simp only [next, hskip, h]

theorem after_of_end {scanner : Scanner} (h : scanner.cursor.lookahead = none)
    (count : Nat) : scanner.after count = scanner := by
  induction count with
  | zero => rfl
  | succ count ih =>
      rw [after, next_of_end h]
      exact ih

theorem after_add (count further : Nat) (scanner : Scanner) :
    scanner.after (count + further) = (scanner.after count).after further := by
  induction count generalizing scanner with
  | zero => rw [Nat.zero_add, after]
  | succ count ih =>
      rw [Nat.succ_add]
      exact ih scanner.next.2

/-!
# Tokens without an end
-/

/-- After its tokens a scanner gives the token of the end for ever. -/
theorem take_eq (count : Nat) (scanner : Scanner) :
    scanner.take count =
      (scanner.tokens ++ List.replicate count
        (Token.atEnd scanner.cursor.total scanner.file)).take count := by
  induction count generalizing scanner with
  | zero => rw [take, List.take_zero]
  | succ count ih =>
      have hothers := ih scanner.next.2
      rw [next_total, next_file] at hothers
      rw [take, hothers]
      cases hend : scanner.next.1.isEnd with
      | true =>
          have hdrop := (next_isEnd_iff scanner).mp hend
          have hlast : scanner.next.1 = Token.atEnd scanner.cursor.total scanner.file := by
            rw [next_of_dropLayout_nil hdrop]
          have hnext : scanner.next.2.next.1 =
              Token.atEnd scanner.cursor.total scanner.file := by
            have hdrop' := (next_isEnd_iff _).mp (next_isEnd_of_isEnd hend)
            rw [next_of_dropLayout_nil hdrop', next_total, next_file]
          rw [tokens_of_isEnd hend, tokens_of_isEnd (next_isEnd_of_isEnd hend), hlast, hnext]
          simp [← List.replicate_succ, List.take_replicate]
      | false =>
          rw [tokens_of_not_isEnd hend, List.cons_append, List.take_succ_cons,
            List.take_append, List.take_append, List.take_replicate, List.take_replicate]
          congr 3
          omega

/-- Only the characters that a source delivers decide about the tokens. -/
theorem tokens_of_charsOf (source : Source) (file : String) :
    (start source file).tokens =
      tokenize (String.ofList (Source.charsOf source.answers)) file := by
  have hlexes := tokenize_lexes (String.ofList (Source.charsOf source.answers)) file
  rw [String.toList_ofList] at hlexes
  exact lexes_unique (start_lexes source file) hlexes

theorem take_of_charsOf (source : Source) (file : String) (count : Nat) :
    (start source file).take count =
      (tokenize (String.ofList (Source.charsOf source.answers)) file ++
        List.replicate count
          (Token.atEnd (Source.charsOf source.answers).length file)).take count := by
  rw [take_eq, tokens_of_charsOf, start_total]
  rfl

/-!
# The end of a source is final
-/

/-- The answers that a scanner has got when it has given `count` tokens. -/
structure Answered (scanner : Scanner) (count : Nat) (got : List (Option Char)) :
    Prop where
  asks : scanner.cursor.Asks got (scanner.after count).cursor
  unique {others : List (Option Char)} :
    scanner.cursor.Asks others (scanner.after count).cursor -> others = got
  first : got = scanner.cursor.source.take got.length
  characters : none ∉ got.dropLast
  final (further : Nat) : none ∈ got ->
    scanner.after (count + further) = scanner.after count ∧
      forall others, (scanner.after count).cursor.Asks others
        (scanner.after (count + further)).cursor -> others = []

theorem exists_answered (scanner : Scanner) (count : Nat) :
    exists got, scanner.Answered count got := by
  rcases after_asks count scanner with ⟨got, hgot⟩
  rcases Cursor.asks_end hgot with ⟨hcharacters, hend⟩
  exists got
  constructor
  · exact hgot
  · intro others hothers
    exact Cursor.asks_unique hgot hothers
  · exact Cursor.asks_take hgot
  · exact hcharacters
  · intro further hmem
    constructor
    · rw [after_add, after_of_end (hend hmem)]
    · intro others hothers
      exact (Cursor.asks_of_end (hend hmem) hothers).left

/--
A script of reads gives the tokens of the text that it delivers, then the token
of the end for ever, as all its bytes in one read do.  No source is asked again
once it has answered with nothing.
-/
theorem take_ofReads (script : List Source.Read) (file : String) (count : Nat) :
    let text := String.ofList ((Source.delivered script).map Source.ofByte)
    (start (.ofReads script) file).take count =
        (start (.ofString text) file).take count ∧
      (start (.ofReads script) file).take count =
        (start (.ofBytes (Source.delivered script)) file).take count ∧
      (start (.ofReads script) file).take count =
        (tokenize text file ++ List.replicate count
          (Token.atEnd text.toList.length file)).take count ∧
      forall source : Source, exists got, (start source file).Answered count got := by
  intro text
  have hreads := take_of_charsOf (.ofReads script) file count
  have htext := take_of_charsOf (.ofString text) file count
  have hbytes := take_of_charsOf (.ofBytes (Source.delivered script)) file count
  rw [Source.charsOf_ofReads] at hreads
  rw [Source.charsOf_ofString, String.toList_ofList] at htext
  rw [Source.charsOf_ofBytes] at hbytes
  refine ⟨hreads.trans htext.symm, hreads.trans hbytes.symm, ?_,
    fun source => exists_answered (start source file) count⟩
  rw [String.toList_ofList]
  exact hreads

end Scanner
end Kaleidoscope
