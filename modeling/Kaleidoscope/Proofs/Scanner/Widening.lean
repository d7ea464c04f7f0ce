import Kaleidoscope.Proofs.Scanner.Streaming
import Kaleidoscope.Proofs.Scanner.Tokenization
import Kaleidoscope.Proofs.Text.Utf8

/-!
# Wide characters

A character that is not ASCII is a token of its own wherever it is not in a
comment.  So if each of them is replaced by one or more others, the tokens stay
the same but for these.
-/

namespace Kaleidoscope

/-!
# Classes of wide characters
-/

namespace IsWide

variable {c : Char}

theorem not_val_le (h : IsWide c) {bound : UInt32} (hbound : bound.toNat < 128) :
    ¬ c.val ≤ bound := by
  intro hle
  have hascii := UInt32.le_iff_toNat_le.mp hle
  have hwide : 128 ≤ c.val.toNat := h
  omega

theorem isAlphanum (h : IsWide c) : c.isAlphanum = false := by
  have hupper : c.isUpper = false := by
    apply decide_eq_false
    rintro ⟨-, hle⟩
    exact h.not_val_le (by decide) hle
  have hlower : c.isLower = false := by
    apply Bool.and_eq_false_iff.mpr
    exact Or.inr (decide_eq_false (h.not_val_le (by decide)))
  have hdigit : c.isDigit = false := by
    apply Bool.and_eq_false_iff.mpr
    exact Or.inr (decide_eq_false (h.not_val_le (by decide)))
  exact Bool.or_eq_false_iff.mpr ⟨Bool.or_eq_false_iff.mpr ⟨hupper, hlower⟩, hdigit⟩

theorem isAlpha (h : IsWide c) : c.isAlpha = false :=
  (Bool.or_eq_false_iff.mp h.isAlphanum).left

theorem isNumberPart (h : IsWide c) : Token.isNumberPart c = false := by
  have hpoint : c ≠ '.' := by
    rintro rfl
    exact absurd h (by decide)
  rw [Token.isNumberPart, (Bool.or_eq_false_iff.mp h.isAlphanum).right]
  simpa using hpoint

theorem not_isBlank (h : IsWide c) : ¬ IsBlank c := by
  intro hblank
  simp only [IsBlank, List.mem_cons, List.not_mem_nil, or_false] at hblank
  rcases hblank with hc | hc | hc | hc | hc | hc
  all_goals
    rw [hc] at h
    exact absurd h (by decide)

theorem ne_hash (h : IsWide c) : c ≠ '#' := by
  rintro rfl
  exact absurd h (by decide)

theorem not_isLineEnd (h : IsWide c) : ¬ IsLineEnd c := by
  intro hend
  simp only [IsLineEnd, List.mem_cons, List.not_mem_nil, or_false] at hend
  rcases hend with hc | hc
  all_goals
    rw [hc] at h
    exact absurd h (by decide)

theorem not_continues (h : IsWide c) (first : Char) : Token.continues first c = false := by
  rw [Token.continues, h.isAlphanum, h.isNumberPart, Bool.and_false, ite_self]

theorem continues_false (h : IsWide c) (next : Char) : Token.continues c next = false :=
  Token.continues_of_other h.isAlpha h.isNumberPart next

theorem kind (h : IsWide c) (rest : List Char) :
    Token.Kind.ofLexeme (c :: rest) = .character c := by
  rw [Token.Kind.ofLexeme, if_neg (by simp [h.isAlpha]), if_neg (by simp [h.isNumberPart])]

theorem dropWhile_continues (h : IsWide c) (rest : List Char) :
    rest.dropWhile (Token.continues c) = rest := by
  cases rest with
  | nil => rfl
  | cons d rest => rw [List.dropWhile_cons_of_neg (by simp [h.continues_false d])]

theorem dropLayout (h : IsWide c) (rest : List Char) :
    Cursor.dropLayout false (c :: rest) = c :: rest :=
  Cursor.dropLayout_of_atLexeme (atLexeme_cons h.not_isBlank h.ne_hash rest)

end IsWide

/-!
# Widened texts
-/

namespace Text

/-- Each wide character of the first text is one or more of them in the second. -/
inductive Widens : List Char -> List Char -> Prop where
  | nothing : Widens [] []
  | same {c : Char} {text other : List Char} :
      ¬ IsWide c -> Widens text other -> Widens (c :: text) (c :: other)
  | wide {c first : Char} {run text other : List Char} :
      IsWide c -> IsWide first -> (forall d, d ∈ run -> IsWide d) ->
      Widens text other -> Widens (c :: text) (first :: (run ++ other))

end Text

inductive Token.Widens : List Token.Kind -> List Token.Kind -> Prop where
  | atEnd : Widens [.endOfInput] [.endOfInput]
  | same {kind : Token.Kind} {kinds others : List Token.Kind} :
      kind ≠ .endOfInput -> (forall c, kind = .character c -> ¬ IsWide c) ->
      Widens kinds others -> Widens (kind :: kinds) (kind :: others)
  | wide {c first : Char} {run : List Char} {kinds others : List Token.Kind} :
      IsWide c -> IsWide first -> (forall d, d ∈ run -> IsWide d) ->
      Widens kinds others ->
      Widens (.character c :: kinds)
        (.character first :: (run.map Token.Kind.character ++ others))

section

variable {text other : List Char}

theorem widens_dropLayout (inComment : Bool) (h : Text.Widens text other) :
    Text.Widens (Cursor.dropLayout inComment text) (Cursor.dropLayout inComment other) := by
  induction h generalizing inComment with
  | nothing => exact Text.Widens.nothing
  | @same c text other hc hrest ih =>
      unfold Cursor.dropLayout
      cases Cursor.layoutStep? inComment c with
      | none => exact Text.Widens.same hc hrest
      | some inside => exact ih inside
  | @wide c first run text other hc hfirst hrun hrest ih =>
      cases inComment with
      | false =>
          rw [hc.dropLayout, hfirst.dropLayout]
          exact Text.Widens.wide hc hfirst hrun hrest
      | true =>
          have hcomment := Cursor.dropLayout_comment
            (fun d (hd : d ∈ run) => (hrun d hd).not_isLineEnd) other
          rw [Cursor.dropLayout_inside hc.not_isLineEnd,
            Cursor.dropLayout_inside hfirst.not_isLineEnd, hcomment]
          exact ih true

theorem widens_takeWhile {p : Char -> Bool} (hp : forall c, IsWide c -> p c = false)
    (h : Text.Widens text other) :
    text.takeWhile p = other.takeWhile p ∧
      Text.Widens (text.dropWhile p) (other.dropWhile p) := by
  induction h with
  | nothing => exact ⟨rfl, Text.Widens.nothing⟩
  | @same c text other hc hrest ih =>
      rw [List.takeWhile_cons, List.takeWhile_cons, List.dropWhile_cons, List.dropWhile_cons]
      split
      · exact ⟨congrArg (c :: ·) ih.left, ih.right⟩
      · exact ⟨rfl, Text.Widens.same hc hrest⟩
  | @wide c first run text other hc hfirst hrun hrest ih =>
      rw [List.takeWhile_cons_of_neg (by simp [hp c hc]),
        List.takeWhile_cons_of_neg (by simp [hp first hfirst]),
        List.dropWhile_cons_of_neg (by simp [hp c hc]),
        List.dropWhile_cons_of_neg (by simp [hp first hfirst])]
      exact ⟨rfl, Text.Widens.wide hc hfirst hrun hrest⟩

end

/-!
# Widened tokens
-/

namespace Scanner

section

variable {total : Nat} {file : String} {text : List Char} {tokens : List Token}

theorem lexes_wide {c : Char} (hc : IsWide c) (h : Lexes total file (c :: text) tokens) :
    exists token more, tokens = token :: more ∧ token.kind = .character c ∧
      Lexes total file text more := by
  cases h with
  | done hdrop =>
      rw [hc.dropLayout] at hdrop
      cases hdrop
  | @token _ _ _ more hdrop hrest =>
      rw [hc.dropLayout] at hdrop
      cases hdrop
      rw [hc.dropWhile_continues] at hrest
      exact ⟨_, more, rfl, hc.kind _, hrest⟩

theorem lexes_wide_run {run : List Char} (hrun : forall d, d ∈ run -> IsWide d)
    (h : Lexes total file (run ++ text) tokens) :
    exists more,
      tokens.map Token.kind = run.map Token.Kind.character ++ more.map Token.kind ∧
        Lexes total file text more := by
  induction run generalizing tokens with
  | nil => exact ⟨tokens, rfl, h⟩
  | cons d run ih =>
      rcases lexes_wide (hrun d List.mem_cons_self) h with ⟨token, rest, hcons, hkind, hrest⟩
      rcases ih (fun e he => hrun e (List.mem_cons_of_mem d he)) hrest with
        ⟨more, hmore, hlexes⟩
      refine ⟨more, ?_, hlexes⟩
      rw [hcons, List.map_cons, hkind, hmore]
      rfl

end

theorem not_isWide_of_ofLexeme {first : Char} (hfirst : ¬ IsWide first) (rest : List Char)
    (c : Char) (hkind : Token.Kind.ofLexeme (first :: rest) = .character c) :
    ¬ IsWide c := by
  rw [Token.Kind.ofLexeme] at hkind
  split at hkind
  · rw [Token.Kind.ofWord, Token.Kind.keyword?] at hkind
    split at hkind
    · cases hkind
    · split at hkind
      · cases hkind
      · cases hkind
  · split at hkind
    · cases hkind
    · injection hkind with hkind
      rw [← hkind]
      exact hfirst

/-- The tokens of a widened text are those of the text, widened. -/
theorem widens_lexes {total total' : Nat} {file file' : String} {text other : List Char}
    {tokens others : List Token} (h : Lexes total file text tokens)
    (hwidens : Text.Widens text other) (hother : Lexes total' file' other others) :
    Token.Widens (tokens.map Token.kind) (others.map Token.kind) := by
  induction h generalizing other others with
  | done hdrop =>
      have hrest := widens_dropLayout false hwidens
      rw [hdrop] at hrest
      generalize hdrop' : Cursor.dropLayout false other = unread at hrest
      cases hrest
      cases hother with
      | done _ => exact Token.Widens.atEnd
      | token hcons _ =>
          rw [hdrop'] at hcons
          cases hcons
  | @token text first rest tokens hdrop _ ih =>
      have hrest := widens_dropLayout false hwidens
      rw [hdrop] at hrest
      generalize hdrop' : Cursor.dropLayout false other = unread at hrest
      cases hrest with
      | @same _ _ rest' hfirst hrest =>
          rcases widens_takeWhile (fun c hc => hc.not_continues first) hrest with
            ⟨hrun, hafter⟩
          cases hother with
          | done hnil =>
              rw [hdrop'] at hnil
              cases hnil
          | token hcons hlexes =>
              rw [hdrop'] at hcons
              cases hcons
              have hsame : (Token.beginning total' file' first rest').kind =
                  (Token.beginning total file first rest).kind := by
                simp only [Token.beginning, Token.ofLexeme, hrun]
              rw [List.map_cons, List.map_cons, hsame]
              exact Token.Widens.same (Token.kind_ofLexeme_cons_ne_endOfInput _ _)
                (not_isWide_of_ofLexeme hfirst _) (ih hafter hlexes)
      | @wide _ first' run _ rest' hfirst hfirst' hrun hrest =>
          cases hother with
          | done hnil =>
              rw [hdrop'] at hnil
              cases hnil
          | token hcons hlexes =>
              rw [hdrop'] at hcons
              cases hcons
              rw [hfirst'.dropWhile_continues] at hlexes
              rcases lexes_wide_run hrun hlexes with ⟨more, hmore, hlexes⟩
              rw [hfirst.dropWhile_continues] at ih
              have hkind : (Token.beginning total file first rest).kind =
                  .character first := hfirst.kind _
              have hkind' : (Token.beginning total' file' first' (run ++ rest')).kind =
                  .character first' := hfirst'.kind _
              rw [List.map_cons, List.map_cons, hkind, hkind', hmore]
              exact Token.Widens.wide hfirst hfirst' hrun (ih hrest hlexes)

end Scanner

/-!
# Wide characters in comments
-/

namespace Cursor

def commentAfter (inComment : Bool) (c : Char) : Bool :=
  if inComment then
    !isLineEnd c
  else
    c == '#'

/-- Every wide character of the text is in a comment. -/
def Commented (inComment : Bool) : List Char -> Prop
  | [] => True
  | c :: rest =>
      (IsWide c -> inComment = true) ∧ Commented (commentAfter inComment c) rest

instance decidableCommented (inComment : Bool) (text : List Char) :
    Decidable (Commented inComment text) :=
  match text with
  | [] => isTrue trivial
  | c :: rest =>
      have := decidableCommented (commentAfter inComment c) rest
      inferInstanceAs (Decidable (_ ∧ _))

theorem commentAfter_of_layoutStep {inComment inside : Bool} {c : Char}
    (h : layoutStep? inComment c = some inside) : commentAfter inComment c = inside := by
  cases inComment with
  | true => exact Option.some.inj h
  | false =>
      unfold layoutStep? at h
      by_cases hspace : isSpace c = true
      · rw [if_neg (by simp), if_pos hspace] at h
        have hhash : c ≠ '#' := by
          rintro rfl
          exact absurd hspace (by decide)
        rw [← Option.some.inj h]
        simpa [commentAfter] using hhash
      · rw [if_neg (by simp), if_neg hspace] at h
        split at h
        · next hhash =>
            rw [← Option.some.inj h, hhash]
            rfl
        · cases h

theorem commented_dropLayout {inComment : Bool} {text : List Char}
    (h : Commented inComment text) : Commented false (dropLayout inComment text) := by
  induction text generalizing inComment with
  | nil => trivial
  | cons c rest ih =>
      rw [dropLayout]
      cases hstep : layoutStep? inComment c with
      | none =>
          cases inComment with
          | true => cases hstep
          | false => exact h
      | some inside =>
          have hrest := h.right
          rw [commentAfter_of_layoutStep hstep] at hrest
          exact ih hrest

theorem commented_rest {c : Char} {rest : List Char} (hc : c ≠ '#')
    (h : Commented false (c :: rest)) : ¬ IsWide c ∧ Commented false rest := by
  have hafter : commentAfter false c = false := by
    simpa [commentAfter] using hc
  have hrest := h.right
  rw [hafter] at hrest
  exact ⟨fun hwide => Bool.false_ne_true (h.left hwide), hrest⟩

theorem commented_dropWhile {p : Char -> Bool} (hp : p '#' = false) {text : List Char}
    (h : Commented false text) : Commented false (text.dropWhile p) := by
  induction text with
  | nil => exact h
  | cons c rest ih =>
      rw [List.dropWhile_cons]
      split
      · next hc =>
          have hhash : c ≠ '#' := by
            rintro rfl
            rw [hp] at hc
            cases hc
          exact ih (commented_rest hhash h).right
      · exact h

end Cursor

namespace Scanner

theorem lexes_commented {total : Nat} {file : String} {text : List Char}
    {tokens : List Token} (h : Lexes total file text tokens)
    (hcommented : Cursor.Commented false text) {token : Token} (htoken : token ∈ tokens)
    {c : Char} (hkind : token.kind = .character c) : ¬ IsWide c := by
  induction h with
  | done _ =>
      rw [List.mem_singleton.mp htoken] at hkind
      cases hkind
  | @token text first rest tokens hdrop _ ih =>
      have hfirst := Cursor.atLexeme_dropLayout false text
      have hbody := Cursor.commented_dropLayout hcommented
      rw [hdrop] at hfirst hbody
      rcases Cursor.commented_rest (hfirst first rfl).right hbody with ⟨hwide, hrest⟩
      rcases List.mem_cons.mp htoken with hsame | hmem
      · rw [hsame] at hkind
        exact not_isWide_of_ofLexeme hwide _ c hkind
      · have hhash : Token.continues first '#' = false := by
          rw [Token.continues]
          split
          · rfl
          · exact Bool.and_false _
        exact ih (Cursor.commented_dropWhile hhash hrest) hmem

end Scanner

theorem Token.eq_of_widens {kinds others : List Token.Kind} (h : Widens kinds others)
    (hkinds : forall c, .character c ∈ kinds -> ¬ IsWide c) : others = kinds := by
  induction h with
  | atEnd => rfl
  | @same kind kinds others _ _ _ ih =>
      rw [ih fun c hc => hkinds c (List.mem_cons_of_mem kind hc)]
  | wide hc _ _ _ _ => exact absurd hc (hkinds _ List.mem_cons_self)

/-!
# Bytes as characters
-/

namespace Source

theorem ofByte_isWide_iff (byte : UInt8) : IsWide (ofByte byte) <-> 128 ≤ byte.toNat := by
  have hvalid : byte.toNat.isValidChar :=
    Or.inl (Nat.lt_trans byte.toNat_lt (by decide))
  have hsame : (ofByte byte).toNat = byte.toNat := by
    rw [ofByte, Char.ofNat, dif_pos hvalid]
    rfl
  rw [IsWide, hsame]

theorem widens_ofByte (text : List Char) :
    Text.Widens text ((text.flatMap String.utf8EncodeChar).map ofByte) := by
  induction text with
  | nil => exact Text.Widens.nothing
  | cons c rest ih =>
      rw [List.flatMap_cons, List.map_append]
      by_cases hc : IsWide c
      · rcases Text.utf8EncodeChar_of_isWide hc with ⟨hne, hbytes⟩
        rcases List.exists_cons_of_ne_nil hne with ⟨byte, bytes, hcons⟩
        rw [hcons] at hbytes ⊢
        refine Text.Widens.wide hc ?_ ?_ ih
        · exact (ofByte_isWide_iff byte).mpr (hbytes byte List.mem_cons_self)
        · intro d hd
          rcases List.mem_map.mp hd with ⟨other, hother, hsame⟩
          rw [← hsame]
          exact (ofByte_isWide_iff other).mpr (hbytes other (List.mem_cons_of_mem byte hother))
      · have hsame : ofByte (UInt8.ofNat c.toNat) = c := by
          have hless : c.toNat < 256 := Nat.lt_trans (Nat.not_le.mp hc) (by decide)
          rw [ofByte, UInt8.toNat_ofNat', Nat.mod_eq_of_lt hless, Char.ofNat_toNat]
        rw [Text.utf8EncodeChar_of_not_isWide hc, List.map_singleton, hsame]
        exact Text.Widens.same hc ih

end Source

namespace Scanner

theorem widens_tokens (text file file' : String) :
    Token.Widens ((start (.ofString text) file).tokens.map Token.kind)
      ((start (.ofBytes (Text.utf8 text)) file').tokens.map Token.kind) := by
  have hbytes := start_lexes (.ofBytes (Text.utf8 text)) file'
  rw [Source.charsOf_ofBytes, Text.utf8_eq_flatMap] at hbytes
  rw [Text.utf8_eq_flatMap]
  exact widens_lexes (tokenize_lexes text file) (Source.widens_ofByte text.toList) hbytes

/-- If all wide characters are in comments, the kinds are the same. -/
theorem kinds_of_commented {text : String} (h : Cursor.Commented false text.toList)
    (file file' : String) :
    (start (.ofBytes (Text.utf8 text)) file').tokens.map Token.kind =
      (start (.ofString text) file).tokens.map Token.kind := by
  apply Token.eq_of_widens (widens_tokens text file file')
  intro c hmem
  rcases List.mem_map.mp hmem with ⟨token, htoken, hkind⟩
  exact lexes_commented (tokenize_lexes text file) h htoken hkind

end Scanner
end Kaleidoscope
