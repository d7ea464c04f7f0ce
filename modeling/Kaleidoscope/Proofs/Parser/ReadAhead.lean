import Kaleidoscope.Proofs.Parser.Lookahead
import Kaleidoscope.Proofs.Scanner.Streaming
import Kaleidoscope.Proofs.Scanner.Tokenization

/-!
# How far a parser reads ahead

Beyond the end of its lookahead a parser has pulled one character, or none if
its source has none there.
-/

namespace Kaleidoscope

theorem Cursor.asks_pulled {cursor rest : Cursor} {got : List (Option Char)}
    (h : Asks cursor got rest) : rest.pulled = cursor.pulled + got.countP Option.isSome := by
  induction h with
  | nothing _ => rfl
  | @answer cursor rest got _ _ ih =>
      rw [ih, List.countP_cons]
      cases hnext : cursor.source.next.1 with
      | none => simp only [ask, hnext, Option.isSome_none, Bool.false_eq_true, if_false,
          Nat.add_zero]
      | some c =>
          simp only [ask, hnext, Option.isSome_some, if_true]
          omega

namespace Scanner

theorem next_stop (scanner : Scanner) :
    scanner.next.1.stop = scanner.next.2.cursor.offset := by
  unfold next
  dsimp only
  split
  · rfl
  · rfl

theorem next_unread_length (scanner : Scanner) :
    scanner.next.2.cursor.unread.length ≤ scanner.cursor.unread.length - 1 := by
  have hlength := dropLayout_length_le false scanner.cursor.unread
  cases hdrop : Cursor.dropLayout false scanner.cursor.unread with
  | nil =>
      rw [next_of_dropLayout_nil hdrop]
      show scanner.cursor.skipLayout.unread.length ≤ _
      rw [Cursor.skipLayout_unread, hdrop]
      exact Nat.zero_le _
  | cons first rest =>
      have hrest := List.length_dropWhile_le (Token.continues first) rest
      rw [hdrop, List.length_cons] at hlength
      rw [next_unread_of_cons hdrop]
      omega

end Scanner

namespace Parser

/-- A parser that reads a source, one token ahead. -/
structure Reading (source : Source) (parser : Parser) : Prop where
  asked : exists got, (Cursor.start source).Asks got parser.scanner.cursor
  total : parser.scanner.cursor.total = (Source.charsOf source.answers).length
  unread : parser.scanner.cursor.unread.length ≤ (Source.charsOf source.answers).length
  stop : parser.current.stop = parser.scanner.cursor.offset

section

variable {source : Source} {parser : Parser}

theorem start_reading (source : Source) (file : String) :
    Reading source (start (.start source file)) where
  asked := Scanner.next_asks (.start source file)
  total := (Scanner.next_total _).trans (Scanner.start_total source file)
  unread := by
    have hunread := Scanner.next_unread_length (.start source file)
    rw [Scanner.start_unread] at hunread
    exact hunread
  stop := Scanner.next_stop _

theorem advance_reading (h : Reading source parser) : Reading source parser.advance where
  asked := by
    rcases h.asked with ⟨got, hgot⟩
    rcases Scanner.next_asks parser.scanner with ⟨further, hfurther⟩
    exact ⟨got ++ further, Cursor.asks_append hgot hfurther⟩
  total := (Scanner.next_total parser.scanner).trans h.total
  unread := by
    have hunread := Scanner.next_unread_length parser.scanner
    exact hunread.trans ((Nat.sub_le _ 1).trans h.unread)
  stop := Scanner.next_stop parser.scanner

theorem install_reading (h : Reading source parser) (op : Char) (precedence : Int32) :
    Reading source (parser.install op precedence) :=
  ⟨h.asked, h.total, h.unread, h.stop⟩

theorem after_reading (source : Source) (file : String) (requests : List Request) :
    Reading source ((start (.start source file)).after requests) :=
  after_keeps (fun _ h => advance_reading h) (fun _ op precedence h =>
    install_reading h op precedence) (start_reading source file) requests

theorem pulled_le (h : Reading source parser) :
    parser.scanner.cursor.pulled ≤ (Source.charsOf source.answers).length := by
  rw [← h.total, Cursor.total]
  split
  · exact Nat.le_refl _
  · exact Nat.le_add_right _ _

/-- The character after the lookahead is pulled, if there is one, and no other. -/
theorem pulled_eq (h : Reading source parser)
    (hlength : (Source.charsOf source.answers).length ≤ Position.maxOffset) :
    parser.scanner.cursor.pulled =
      if parser.current.stop < (Source.charsOf source.answers).length then
        parser.current.stop + 1
      else
        parser.current.stop := by
  have htotal := h.total
  have hunread := h.unread
  have hpulled := pulled_le h
  have hclamp : Position.clamp parser.scanner.cursor.pulled =
      parser.scanner.cursor.pulled :=
    Nat.min_eq_left (hpulled.trans hlength)
  cases hlook : parser.scanner.cursor.lookahead with
  | none =>
      have hstop : parser.current.stop = parser.scanner.cursor.pulled := by
        rw [h.stop, Cursor.offset, hlook]
        exact hclamp
      have hall : parser.scanner.cursor.pulled =
          (Source.charsOf source.answers).length := by
        rw [← htotal, Cursor.total, hlook]
      rw [hstop, hall, if_neg (Nat.lt_irrefl _)]
  | some c =>
      have hstop : parser.current.stop = parser.scanner.cursor.pulled - 1 := by
        rw [h.stop, Cursor.offset, hlook]
        exact congrArg (· - 1) hclamp
      rw [Cursor.total_of_some hlook] at htotal
      rw [Cursor.unread_of_some hlook, List.length_cons] at hunread
      rw [if_pos (by omega)]
      omega

end

end Parser
end Kaleidoscope
