import Kaleidoscope.Proofs.Scanner.Streaming
import Kaleidoscope.Proofs.Session.Errors
import Kaleidoscope.Proofs.Snippet.Lines

/-!
# The caret

The snippet of an error shows the line of the token that the error describes,
and the caret stands under the first character of that token.
-/

namespace Kaleidoscope

/-!
# Tokens in their text
-/

/-- The characters stand at an offset of the text; none of them only at its end. -/
structure Stands (text : List Char) (offset : Nat) (lexeme : List Char) : Prop where
  within : offset ≤ text.length
  split : exists following, text.drop offset = lexeme ++ following
  visible {c : Char} : c ∈ lexeme -> ¬ IsBlank c
  atEnd : lexeme = [] -> offset = text.length

theorem stands_of_fits {text : List Char} {file : String} {token : Token}
    (h : token.Fits text file) : Stands text token.start token.lexeme.toList := by
  rcases Token.isLexeme_of_hasKind h.kind with ⟨first, rest, hslice, hlexeme⟩
  have hsplit := slice_append_drop text (Nat.le_of_lt h.nonempty)
  have htext := h.lexeme
  rw [hslice] at hsplit htext
  rw [htext, String.toList_ofList]
  constructor
  · exact Nat.le_trans (Nat.le_of_lt h.nonempty) h.inside
  · exact ⟨_, hsplit.symm⟩
  · intro c hc
    rcases List.mem_cons.mp hc with hsame | hc
    · rw [hsame]
      exact hlexeme.not_blank
    · exact (Token.not_isBlank_of_continues (hlexeme.continues hc)).left
  · intro hnil
    cases hnil

theorem stands_of_token {source : Source} {file : String}
    (h : (Source.charsOf source.answers).length < Nat.pow 2 32) {token : Token}
    (hmem : token ∈ (Scanner.start source file).tokens) :
    Stands (Source.charsOf source.answers) token.start token.lexeme.toList := by
  have htotal := Nat.le_sub_one_of_lt h
  rcases Scanner.start_tokenizes file htotal with ⟨body, hbody, htokenizes⟩
  rw [hbody] at hmem
  rcases List.mem_append.mp hmem with hmem | hlast
  · exact stands_of_fits (htokenizes.fits hmem)
  · rw [List.mem_singleton.mp hlast, Token.atEnd_start htotal]
    constructor
    · exact Nat.le_refl _
    · exact ⟨[], List.drop_length⟩
    · intro c hc
      cases hc
    · intro _
      rfl

theorem stands_of_error {source : Source} {file : String}
    (h : (Source.charsOf source.answers).length < Nat.pow 2 32) {error : SyntaxError}
    (herror : .error error ∈ Session.outcomes (.start (.start source file))) :
    Stands (Source.charsOf source.answers) error.position.offset error.lexeme.toList := by
  rcases Session.exists_token_of_error herror with ⟨token, hmem, hlexeme, hposition⟩
  rw [hlexeme, hposition]
  exact stands_of_token h hmem

namespace Snippet

/-!
# What is shown of a line
-/

def indentation (place : LinePlace) : Nat :=
  (place.line.takeWhile isIndentation).length

def shown (place : LinePlace) : List Char :=
  Text.trimRight (place.line.drop (indentation place))

def gutter (place : LinePlace) : List Char :=
  (toString place.number ++ " | ").toList

theorem takeWhile_length_le {p : Char -> Bool} {line rest : List Char} {column : Nat}
    {c : Char} (hdrop : line.drop column = c :: rest) (hc : p c = false) :
    (line.takeWhile p).length ≤ column := by
  cases hpart : (line.takeWhile p).drop column with
  | nil => exact List.drop_eq_nil_iff.mp hpart
  | cons d others =>
      have hmem : d ∈ line.takeWhile p := by
        apply List.mem_of_mem_drop (i := column)
        rw [hpart]
        exact List.mem_cons_self
      have hline : line.drop column =
          (line.takeWhile p).drop column ++
            (line.dropWhile p).drop (column - (line.takeWhile p).length) := by
        rw [← List.drop_append, List.takeWhile_append_dropWhile]
      rw [hdrop, hpart, List.cons_append] at hline
      injection hline with hsame _
      have hd := List.mem_takeWhile_imp hmem
      rw [← hsame, hc] at hd
      cases hd

theorem not_isIndentation {c : Char} (h : ¬ IsBlank c) : isIndentation c = false := by
  apply Bool.eq_false_iff.mpr
  intro hindentation
  rcases Bool.or_eq_true_iff.mp hindentation with hc | hc
  · exact h (by rw [eq_of_beq hc]; simp [IsBlank])
  · exact h (by rw [eq_of_beq hc]; simp [IsBlank])

theorem trimRight_append (text : List Char) :
    exists blanks, text = Text.trimRight text ++ blanks ∧
      forall c, c ∈ blanks -> Text.isBlank c = true := by
  refine ⟨(text.reverse.takeWhile Text.isBlank).reverse, ?_, ?_⟩
  · rw [Text.trimRight, ← List.reverse_append, List.takeWhile_append_dropWhile,
      List.reverse_reverse]
  · intro c hc
    exact List.mem_takeWhile_imp (List.mem_reverse.mp hc)

theorem trimRight_concat {c : Char} (h : Text.isBlank c = true) (text : List Char) :
    Text.trimRight (text ++ [c]) = Text.trimRight text := by
  rw [Text.trimRight, List.reverse_append, List.reverse_singleton, List.singleton_append,
    List.dropWhile_cons_of_pos h, Text.trimRight]

theorem mem_of_mem_trimRight {c : Char} {text : List Char} (h : c ∈ Text.trimRight text) :
    c ∈ text := by
  rcases trimRight_append text with ⟨blanks, htext, _⟩
  rw [htext]
  exact List.mem_append_left blanks h

section

variable {first offset : Nat} {text before after : List Char} {place : LinePlace}
  (h : Lies first text offset before after place)
include h

theorem lineFeed_not_mem_shown : '\n' ∉ shown place := by
  intro hmem
  rcases h.stops with ⟨_, hline⟩ | ⟨body, hline, hbody, _⟩
  · exact hline (List.mem_of_mem_drop (mem_of_mem_trimRight hmem))
  · have hfeed : place.line.drop body.length = ['\n'] := by
      rw [hline]
      exact List.drop_left
    have hindentation : indentation place ≤ body.length := takeWhile_length_le hfeed rfl
    rw [shown, hline, List.drop_append_of_le_length hindentation,
      trimRight_concat (by decide)] at hmem
    exact hbody (List.mem_of_mem_drop (mem_of_mem_trimRight hmem))

variable {lexeme : List Char} (hstands : Stands text offset lexeme)
include hstands

theorem lexeme_on_line : lexeme <+: place.line.drop place.column := by
  rcases hstands.split with ⟨following, hdrop⟩
  apply prefix_of_lies h _ hdrop
  intro hmem
  exact hstands.visible hmem (by simp [IsBlank])

theorem indentation_le_column : indentation place ≤ place.column := by
  cases lexeme with
  | nil =>
      rw [column_of_end h (hstands.atEnd rfl)]
      exact (List.takeWhile_prefix isIndentation).length_le
  | cons c rest =>
      rcases lexeme_on_line h hstands with ⟨following, hline⟩
      exact takeWhile_length_le hline.symm
        (not_isIndentation (hstands.visible List.mem_cons_self))

theorem first_shown {c : Char} {rest : List Char} (hlexeme : lexeme = c :: rest) :
    (shown place)[place.column - indentation place]? = some c ∨
      Text.isBlank c = true ∧
        (shown place).length ≤ place.column - indentation place := by
  have hindentation := indentation_le_column h hstands
  rcases lexeme_on_line h hstands with ⟨following, hline⟩
  have hplace : (place.line.drop (indentation place))[place.column - indentation place]? =
      some c := by
    rw [List.getElem?_drop, Nat.add_sub_cancel' hindentation, ← List.head?_drop, ← hline,
      hlexeme]
    rfl
  have htrimmed : exists blanks, place.line.drop (indentation place) = shown place ++ blanks ∧
      forall c, c ∈ blanks -> Text.isBlank c = true :=
    trimRight_append _
  rcases htrimmed with ⟨blanks, htrim, hblanks⟩
  rw [htrim] at hplace
  by_cases hshown : place.column - indentation place < (shown place).length
  · rw [List.getElem?_append_left hshown] at hplace
    exact Or.inl hplace
  · have hright := Nat.le_of_not_lt hshown
    rw [List.getElem?_append_right hright] at hplace
    exact Or.inr ⟨hblanks c (List.mem_of_getElem? hplace), hright⟩

end

/-!
# The lines of a snippet
-/

def pointer (place : LinePlace) : List Char :=
  List.replicate ((toString place.number).length + 1) ' ' ++ ['|', ' '] ++
    List.replicate (place.column - indentation place) '-'

def underline (place : LinePlace) : List Char :=
  pointer place ++ ['^']

theorem not_mem_pointer {c : Char} (hspace : c ≠ ' ') (hbar : c ≠ '|') (hdash : c ≠ '-')
    (place : LinePlace) : c ∉ pointer place := by
  intro h
  rcases List.mem_append.mp h with h | h
  · rcases List.mem_append.mp h with h | h
    · exact hspace (List.eq_of_mem_replicate h)
    · rcases List.mem_cons.mp h with hc | hc
      · exact hbar hc
      · exact hspace (List.mem_singleton.mp hc)
  · exact hdash (List.eq_of_mem_replicate h)

theorem pointer_length (place : LinePlace) :
    (pointer place).length = (gutter place).length + (place.column - indentation place) := by
  rw [pointer, gutter, List.length_append, List.length_append, List.length_replicate,
    List.length_replicate, String.toList_append, List.length_append, String.length_toList]
  rfl

theorem excerpt_toList (place : LinePlace) :
    (excerpt place).toList =
      (fill ((toString place.number).length + 1) ' ' ++ "|").toList ++
        '\n' :: (gutter place ++ shown place) ++ '\n' :: underline place ++ ['\n'] := by
  have hfeed : "\n".toList = ['\n'] := rfl
  have hbar : "|".toList = ['|'] := rfl
  have hspace : " ".toList = [' '] := rfl
  have hcaret : "^\n".toList = ['^', '\n'] := rfl
  simp only [excerpt, fill, gutter, underline, pointer, shown, indentation, String.toList_append,
    String.toList_ofList, List.append_assoc, List.cons_append, List.nil_append, hfeed, hbar,
    hspace, hcaret]

theorem getElem?_concat_iff {c : Char} {chars : List Char} (h : c ∉ chars) (k : Nat) :
    (chars ++ [c])[k]? = some c <-> k = chars.length := by
  constructor
  · intro hk
    rcases Nat.lt_or_ge k chars.length with hless | hge
    · rw [List.getElem?_append_left hless] at hk
      exact absurd (List.mem_of_getElem? hk) h
    · rw [List.getElem?_append_right hge] at hk
      have hlast := (List.getElem?_eq_some_iff.mp hk).choose
      rw [List.length_singleton] at hlast
      omega
  · intro hk
    rw [hk, List.getElem?_concat_length]

/-- The only caret stands under the column. -/
theorem caret_iff (place : LinePlace) (k : Nat) :
    (underline place)[k]? = some '^' <->
      k = (gutter place).length + (place.column - indentation place) := by
  have hcaret : '^' ∉ pointer place :=
    not_mem_pointer (by decide) (by decide) (by decide) place
  rw [underline, getElem?_concat_iff hcaret, pointer_length]

theorem lineFeed_not_mem_gutter (place : LinePlace) : '\n' ∉ gutter place := by
  intro hmem
  rw [gutter, String.toList_append] at hmem
  rcases List.mem_append.mp hmem with hmem | hmem
  · have hdigits : '\n' ∈ Nat.toDigits 10 place.number := by
      rw [← Nat.toList_repr]
      exact hmem
    have hdigit := Nat.isDigit_of_mem_toDigits (Nat.succ_pos 9) (Nat.le_refl 10) hdigits
    cases hdigit
  · exact absurd hmem (by decide)

theorem lineFeed_not_mem_underline (place : LinePlace) : '\n' ∉ underline place := by
  intro hmem
  rcases List.mem_append.mp hmem with hmem | hcaret
  · exact not_mem_pointer (by decide) (by decide) (by decide) place hmem
  · cases List.mem_singleton.mp hcaret

/-!
# Snippets of errors
-/

/-- The snippet of an error shows the lexeme of the error, and points at it. -/
structure Points (error : SyntaxError) (text : String) (place : LinePlace) : Prop where
  found : placeAt? text.toList error.position.offset = some place
  lies : exists before after, Lies 1 text.toList error.position.offset before after place
  on_line : place.column + error.lexeme.toList.length ≤ place.line.length
  lexeme :
    slice place.line place.column (place.column + error.lexeme.toList.length) =
      error.lexeme.toList
  indented : indentation place ≤ place.column
  first {c : Char} {rest : List Char} : error.lexeme.toList = c :: rest ->
    (shown place)[place.column - indentation place]? = some c ∨
      Text.isBlank c = true ∧ (shown place).length ≤ place.column - indentation place
  rendered :
    exists header caret,
      (render error text).toList =
          header ++ '\n' :: (gutter place ++ shown place) ++ '\n' :: caret ++ ['\n'] ∧
        '\n' ∉ gutter place ++ shown place ∧ '\n' ∉ caret ∧
        forall k, caret[k]? = some '^' <->
          k = (gutter place).length + (place.column - indentation place)

theorem exists_rendered {error : SyntaxError} {text : String} {place : LinePlace}
    (h : placeAt? text.toList error.position.offset = some place) :
    exists header,
      (render error text).toList =
        header ++ '\n' :: (gutter place ++ shown place) ++ '\n' :: underline place ++
          ['\n'] := by
  have hrender : exists front, render error text = front ++ excerpt place := by
    simp only [render, h]
    exact ⟨_, rfl⟩
  rcases hrender with ⟨front, hrender⟩
  refine ⟨front.toList ++ (fill ((toString place.number).length + 1) ' ' ++ "|").toList, ?_⟩
  rw [hrender, String.toList_append, excerpt_toList]
  simp only [List.append_assoc]

/-- The caret points at the token that an error describes. -/
theorem error_points {text file : String} (h : text.toList.length < Nat.pow 2 32)
    {error : SyntaxError}
    (herror : .error error ∈ Session.outcomes (.start (.start (.ofString text) file))) :
    exists place, Points error text place := by
  rw [← Source.charsOf_ofString text] at h
  have hstands := stands_of_error h herror
  rw [Source.charsOf_ofString text] at hstands
  rcases exists_place hstands.within with ⟨before, after, place, hplace, hlies⟩
  have hfront := lexeme_on_line hlies hstands
  exists place
  constructor
  · exact hplace
  · exact ⟨before, after, hlies⟩
  · have hlength := hfront.length_le
    rw [List.length_drop] at hlength
    have hinside := hlies.inside
    omega
  · rw [slice, Nat.add_sub_cancel_left]
    exact (List.prefix_iff_eq_take.mp hfront).symm
  · exact indentation_le_column hlies hstands
  · intro c rest
    exact first_shown hlies hstands
  · rcases exists_rendered hplace with ⟨header, hrendered⟩
    refine ⟨header, underline place, hrendered, ?_, lineFeed_not_mem_underline place,
      caret_iff place⟩
    intro hmem
    rcases List.mem_append.mp hmem with hmem | hmem
    · exact lineFeed_not_mem_gutter place hmem
    · exact lineFeed_not_mem_shown hlies hmem

theorem error_points_prototype :
    exists place,
      Points ⟨.expectedPrototypeOpenParen, "x", ⟨10, "shell"⟩⟩ "a;\n\tdef f x" place := by
  have herror : .error ⟨.expectedPrototypeOpenParen, "x", ⟨10, "shell"⟩⟩ ∈
      Session.outcomes (.start (.start (.ofString "a;\n\tdef f x") "shell")) := by
    decide +kernel
  exact error_points (by decide) herror

end Snippet
end Kaleidoscope
