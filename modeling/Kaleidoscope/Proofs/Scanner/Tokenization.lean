import Mathlib.Data.List.TakeWhile
import Kaleidoscope.Proofs.Scanner.Layout
import Kaleidoscope.Proofs.Scanner.Lexemes

/-!
# Tokenization

The tokens of a text are described by their offsets in it.  Each token is a
slice of the text, its kind is determined by that slice, no character after it
would go on with it, and all that stands between tokens is layout.  Only one
list of tokens fits this description.
-/

namespace Kaleidoscope

def slice (text : List Char) (start stop : Nat) : List Char :=
  (text.drop start).take (stop - start)

namespace Token

/-- The kind that the characters of a lexeme give it. -/
inductive HasKind : List Char -> Kind -> Prop where
  | define : HasKind "def".toList .define
  | external : HasKind "extern".toList .external
  | identifier {first : Char} {rest : List Char} :
      first.isAlpha = true -> (forall c, c ∈ rest -> c.isAlphanum = true) ->
      String.ofList (first :: rest) ≠ "def" ->
      String.ofList (first :: rest) ≠ "extern" ->
      HasKind (first :: rest) (.identifier (String.ofList (first :: rest)))
  | number {lexeme : List Char} :
      lexeme ≠ [] -> (forall c, c ∈ lexeme -> c.isDigit = true ∨ c = '.') ->
      HasKind lexeme (.number (Numeral.value lexeme))
  | character {c : Char} :
      ¬ IsBlank c -> c ≠ '#' -> c ≠ '.' -> c.isAlpha = false ->
      c.isDigit = false -> HasKind [c] (.character c)

/-- A character that cannot stand right after a lexeme of the kind. -/
def Kind.GoesOn (kind : Kind) (c : Char) : Prop :=
  match kind with
  | .define | .external | .identifier _ => c.isAlphanum = true
  | .number _ => c.isDigit = true ∨ c = '.'
  | .endOfInput | .character _ => False

def start (token : Token) : Nat :=
  token.span.start.offset

def stop (token : Token) : Nat :=
  token.span.stop.offset

/-- The token is the longest lexeme at its place in the text. -/
structure Fits (text : List Char) (file : String) (token : Token) : Prop where
  start_file : token.span.start.file = file
  stop_file : token.span.stop.file = file
  nonempty : token.start < token.stop
  inside : token.stop ≤ text.length
  lexeme : token.lexeme = String.ofList (slice text token.start token.stop)
  kind : HasKind (slice text token.start token.stop) token.kind
  longest : forall c, text[token.stop]? = some c -> ¬ token.kind.GoesOn c

end Token

def stopOf (offset : Nat) (tokens : List Token) : Nat :=
  (tokens.getLast?.map Token.stop).getD offset

def startOf (text : List Char) (tokens : List Token) : Nat :=
  (tokens.head?.map Token.start).getD text.length

/-- The tokens of a text from an offset on, without the end of the input. -/
structure Tokenizes (text : List Char) (file : String) (offset : Nat)
    (body : List Token) : Prop where
  fits {token : Token} : token ∈ body -> token.Fits text file
  after {token : Token} : token ∈ body -> offset ≤ token.start
  ordered : body.Pairwise fun x y => x.stop ≤ y.start
  gap (before after : List Token) : body = before ++ after ->
    Gap (text.drop (startOf text after))
      (slice text (stopOf offset before) (startOf text after))

/-!
# Tokens one after the other
-/

inductive Covers (text : List Char) (file : String) : Nat -> List Token -> Prop where
  | done {offset : Nat} :
      Gap [] (text.drop offset) -> Covers text file offset []
  | token {offset : Nat} {token : Token} {body : List Token} :
      offset ≤ token.start ->
      Gap (text.drop token.start) (slice text offset token.start) ->
      token.Fits text file -> Covers text file token.stop body ->
      Covers text file offset (token :: body)

theorem slice_to_end (text : List Char) (start : Nat) :
    slice text start text.length = text.drop start := by
  rw [slice, ← List.length_drop, List.take_length]

theorem slice_append_drop (text : List Char) {start stop : Nat}
    (h : start ≤ stop) :
    slice text start stop ++ text.drop stop = text.drop start := by
  have hsum : text.drop stop = (text.drop start).drop (stop - start) := by
    rw [List.drop_drop]
    congr 1
    omega
  rw [hsum, slice, List.take_append_drop]

theorem stopOf_cons (offset : Nat) (token : Token) (tokens : List Token) :
    stopOf offset (token :: tokens) = stopOf token.stop tokens := by
  unfold stopOf
  cases tokens with
  | nil => rfl
  | cons next rest =>
      rw [List.getLast?_cons_cons]
      cases hlast : (next :: rest).getLast? with
      | none => simp at hlast
      | some last => rfl

theorem covers_of_tokenizes {text : List Char} {file : String} {offset : Nat}
    {body : List Token} (h : Tokenizes text file offset body) :
    Covers text file offset body := by
  induction body generalizing offset with
  | nil =>
      have hgap := h.gap [] [] rfl
      simp only [startOf, stopOf, List.head?_nil, List.getLast?_nil, Option.map_none,
        Option.getD_none, List.drop_length, slice_to_end] at hgap
      exact Covers.done hgap
  | cons token body ih =>
      rcases List.pairwise_cons.mp h.ordered with ⟨hfirst, hordered⟩
      refine Covers.token (h.after List.mem_cons_self) ?_
        (h.fits List.mem_cons_self) (ih ?_)
      · exact h.gap [] (token :: body) rfl
      · constructor
        · intro other hother
          exact h.fits (List.mem_cons_of_mem token hother)
        · intro other hother
          exact hfirst other hother
        · exact hordered
        · intro before after happend
          have hgap := h.gap (token :: before) after (congrArg (token :: ·) happend)
          rw [stopOf_cons] at hgap
          exact hgap

theorem tokenizes_of_covers {text : List Char} {file : String} {offset : Nat}
    {body : List Token} (h : Covers text file offset body) :
    Tokenizes text file offset body := by
  induction h with
  | @done offset hgap =>
      constructor
      · intro token htoken
        cases htoken
      · intro token htoken
        cases htoken
      · exact List.Pairwise.nil
      · intro before after happend
        rcases List.append_eq_nil_iff.mp happend.symm with ⟨hbefore, hafter⟩
        rw [hbefore, hafter]
        show Gap (text.drop text.length) (slice text offset text.length)
        rw [List.drop_length, slice_to_end]
        exact hgap
  | @token offset token body hstart hgap hfits _ ih =>
      constructor
      · intro other hother
        rcases List.mem_cons.mp hother with hsame | hother
        · rw [hsame]
          exact hfits
        · exact ih.fits hother
      · intro other hother
        rcases List.mem_cons.mp hother with hsame | hother
        · rw [hsame]
          exact hstart
        · have hother := ih.after hother
          have hnonempty := hfits.nonempty
          omega
      · refine List.pairwise_cons.mpr ⟨?_, ih.ordered⟩
        intro other hother
        exact ih.after hother
      · intro before after happend
        cases before with
        | nil =>
            rw [List.nil_append] at happend
            rw [← happend]
            exact hgap
        | cons first before =>
            injection happend with hfirst happend
            rw [stopOf_cons, ← hfirst]
            exact ih.gap before after happend

/-!
# Kinds of lexemes
-/

namespace Token

theorem not_isBlank_of_isAlphanum {c : Char} (h : c.isAlphanum = true) :
    ¬ IsBlank c ∧ c ≠ '#' := by
  constructor
  · intro hblank
    simp only [IsBlank, List.mem_cons, List.not_mem_nil, or_false] at hblank
    rcases hblank with hc | hc | hc | hc | hc | hc
    all_goals
      rw [hc] at h
      exact absurd h (by decide)
  · intro hc
    rw [hc] at h
    exact absurd h (by decide)

theorem isNumberPart_iff (c : Char) :
    isNumberPart c = true <-> c.isDigit = true ∨ c = '.' := by
  simp [isNumberPart]

theorem isAlphanum_of_isAlpha {c : Char} (h : c.isAlpha = true) :
    c.isAlphanum = true := by
  rw [Char.isAlphanum, h, Bool.true_or]

theorem isAlphanum_of_isDigit {c : Char} (h : c.isDigit = true) :
    c.isAlphanum = true := by
  rw [Char.isAlphanum, h, Bool.or_true]

theorem not_isAlpha_of_isDigit {c : Char} (h : c.isDigit = true) :
    c.isAlpha = false := by
  have hdigit : c.val.toNat ≤ 57 :=
    UInt32.le_iff_toNat_le.mp (of_decide_eq_true (Bool.and_eq_true_iff.mp h).right)
  apply Bool.or_eq_false_iff.mpr
  constructor
  · apply decide_eq_false
    rintro ⟨hlow, _⟩
    have hletter : 65 ≤ c.val.toNat := UInt32.le_iff_toNat_le.mp hlow
    omega
  · apply Bool.and_eq_false_iff.mpr
    left
    apply decide_eq_false
    intro hlow
    have hletter : 97 ≤ c.val.toNat := UInt32.le_iff_toNat_le.mp hlow
    omega

theorem not_isAlpha_of_isNumberPart {c : Char} (h : isNumberPart c = true) :
    c.isAlpha = false := by
  rcases (isNumberPart_iff c).mp h with hdigit | hpoint
  · exact not_isAlpha_of_isDigit hdigit
  · rw [hpoint]
    decide

theorem not_isBlank_of_isNumberPart {c : Char} (h : isNumberPart c = true) :
    ¬ IsBlank c ∧ c ≠ '#' := by
  rcases (isNumberPart_iff c).mp h with hdigit | hpoint
  · exact not_isBlank_of_isAlphanum (isAlphanum_of_isDigit hdigit)
  · rw [hpoint]
    simp [IsBlank]

theorem not_isBlank_of_continues {first c : Char} (h : continues first c = true) :
    ¬ IsBlank c ∧ c ≠ '#' := by
  unfold continues at h
  split at h
  · exact not_isBlank_of_isAlphanum h
  · exact not_isBlank_of_isNumberPart (Bool.and_eq_true_iff.mp h).right

theorem continues_of_isAlpha {first : Char} (h : first.isAlpha = true) (c : Char) :
    continues first c = c.isAlphanum := by
  rw [continues, if_pos h]

theorem continues_of_isNumberPart {first : Char} (h : isNumberPart first = true)
    (c : Char) : continues first c = isNumberPart c := by
  rw [continues, if_neg (by simp [not_isAlpha_of_isNumberPart h]), h, Bool.true_and]

theorem continues_of_other {first : Char} (halpha : first.isAlpha = false)
    (hnumber : isNumberPart first = false) (c : Char) :
    continues first c = false := by
  rw [continues, if_neg (by simp [halpha]), hnumber, Bool.false_and]

structure IsLexeme (first : Char) (rest : List Char) (kind : Kind) : Prop where
  not_blank : ¬ IsBlank first
  not_hash : first ≠ '#'
  kind_eq : kind = Kind.ofLexeme (first :: rest)
  continues {c : Char} : c ∈ rest -> continues first c = true
  goesOn_iff (c : Char) : kind.GoesOn c <-> Token.continues first c = true

theorem isLexeme_word {first : Char} {rest : List Char} {kind : Kind}
    (hfirst : first.isAlpha = true)
    (hrest : forall c, c ∈ rest -> c.isAlphanum = true)
    (hkind : kind = Kind.ofWord (String.ofList (first :: rest)))
    (hgoesOn : forall c, kind.GoesOn c <-> c.isAlphanum = true) :
    IsLexeme first rest kind where
  not_blank := (not_isBlank_of_isAlphanum (isAlphanum_of_isAlpha hfirst)).left
  not_hash := (not_isBlank_of_isAlphanum (isAlphanum_of_isAlpha hfirst)).right
  kind_eq := by rw [hkind, Kind.ofLexeme, if_pos hfirst]
  continues := by
    intro c hc
    rw [continues_of_isAlpha hfirst]
    exact hrest c hc
  goesOn_iff := by
    intro c
    rw [continues_of_isAlpha hfirst]
    exact hgoesOn c

theorem isLexeme_number {first : Char} {rest : List Char}
    (h : forall c, c ∈ first :: rest -> c.isDigit = true ∨ c = '.') :
    IsLexeme first rest (.number (Numeral.value (first :: rest))) := by
  have hfirst : isNumberPart first = true :=
    (isNumberPart_iff first).mpr (h first List.mem_cons_self)
  have hblank := not_isBlank_of_isNumberPart hfirst
  constructor
  · exact hblank.left
  · exact hblank.right
  · rw [Kind.ofLexeme, if_neg (by simp [not_isAlpha_of_isNumberPart hfirst]),
      if_pos hfirst]
  · intro c hc
    rw [continues_of_isNumberPart hfirst, isNumberPart_iff]
    exact h c (List.mem_cons_of_mem first hc)
  · intro c
    rw [continues_of_isNumberPart hfirst, isNumberPart_iff]
    exact Iff.rfl

theorem isLexeme_character {c : Char} (hblank : ¬ IsBlank c) (hhash : c ≠ '#')
    (halpha : c.isAlpha = false) (hnumber : isNumberPart c = false) :
    IsLexeme c [] (.character c) := by
  constructor
  · exact hblank
  · exact hhash
  · rw [Kind.ofLexeme, if_neg (by simp [halpha]), if_neg (by simp [hnumber])]
  · intro d hd
    cases hd
  · intro d
    rw [continues_of_other halpha hnumber]
    constructor
    · intro h
      cases h
    · intro h
      cases h

theorem isLexeme_of_hasKind {lexeme : List Char} {kind : Kind}
    (h : HasKind lexeme kind) :
    exists first rest, lexeme = first :: rest ∧ IsLexeme first rest kind := by
  cases h with
  | define =>
      refine ⟨'d', ['e', 'f'], rfl, isLexeme_word rfl ?_ rfl (fun _ => Iff.rfl)⟩
      exact List.all_eq_true.mp rfl
  | external =>
      refine ⟨'e', ['x', 't', 'e', 'r', 'n'], rfl,
        isLexeme_word rfl ?_ rfl (fun _ => Iff.rfl)⟩
      exact List.all_eq_true.mp rfl
  | identifier hfirst hrest hdefine hexternal =>
      refine ⟨_, _, rfl, isLexeme_word hfirst hrest ?_ (fun _ => Iff.rfl)⟩
      rw [Kind.ofWord, Kind.keyword?, if_neg hdefine, if_neg hexternal,
        Option.getD_none]
  | @number lexeme hne hparts =>
      cases lexeme with
      | nil => exact absurd rfl hne
      | cons first rest => exact ⟨first, rest, rfl, isLexeme_number hparts⟩
  | @character c hblank hhash hpoint halpha hdigit =>
      refine ⟨c, [], rfl, isLexeme_character hblank hhash halpha ?_⟩
      simp [isNumberPart, hdigit, hpoint]

theorem isLexeme_ofLexeme {first : Char} {rest : List Char} {kind : Kind}
    (h : HasKind (first :: rest) kind) : IsLexeme first rest kind := by
  rcases isLexeme_of_hasKind h with ⟨first', rest', hsame, hlexeme⟩
  injection hsame with hfirst hrest
  rw [hfirst, hrest]
  exact hlexeme

theorem hasKind_ofWord {first : Char} {rest : List Char}
    (hfirst : first.isAlpha = true)
    (hrest : forall c, c ∈ rest -> c.isAlphanum = true) :
    HasKind (first :: rest) (Kind.ofWord (String.ofList (first :: rest))) := by
  rw [Kind.ofWord, Kind.keyword?]
  by_cases hdefine : String.ofList (first :: rest) = "def"
  · have hlexeme : first :: rest = "def".toList := by
      rw [← hdefine, String.toList_ofList]
    rw [if_pos hdefine, hlexeme]
    exact HasKind.define
  · rw [if_neg hdefine]
    by_cases hexternal : String.ofList (first :: rest) = "extern"
    · have hlexeme : first :: rest = "extern".toList := by
        rw [← hexternal, String.toList_ofList]
      rw [if_pos hexternal, hlexeme]
      exact HasKind.external
    · rw [if_neg hexternal]
      exact HasKind.identifier hfirst hrest hdefine hexternal

theorem hasKind_ofLexeme {first : Char} {rest : List Char}
    (hblank : ¬ IsBlank first) (hhash : first ≠ '#')
    (hrest : forall c, c ∈ rest -> continues first c = true) :
    HasKind (first :: rest) (Kind.ofLexeme (first :: rest)) := by
  rw [Kind.ofLexeme]
  by_cases halpha : first.isAlpha = true
  · rw [if_pos halpha]
    apply hasKind_ofWord halpha
    intro c hc
    rw [← continues_of_isAlpha halpha]
    exact hrest c hc
  · rw [if_neg halpha]
    by_cases hnumber : isNumberPart first = true
    · rw [if_pos hnumber]
      refine HasKind.number (List.cons_ne_nil _ _) ?_
      intro c hc
      rw [← isNumberPart_iff]
      rcases List.mem_cons.mp hc with hsame | hc
      · rw [hsame]
        exact hnumber
      · rw [← continues_of_isNumberPart hnumber]
        exact hrest c hc
    · rw [if_neg hnumber]
      rw [Bool.not_eq_true] at halpha hnumber
      have hnone : rest = [] := by
        cases rest with
        | nil => rfl
        | cons c rest =>
            have hc := hrest c List.mem_cons_self
            rw [continues_of_other halpha hnumber] at hc
            cases hc
      have hparts := (Bool.or_eq_false_iff.mp hnumber)
      rw [hnone]
      exact HasKind.character hblank hhash (by simpa using hparts.right) halpha
        hparts.left

def Kind.IsRead (kind : Kind) : Prop :=
  exists lexeme, HasKind lexeme kind

theorem beginning_isRead {text rest : List Char} {first : Char} (total : Nat) (file : String)
    (h : Cursor.dropLayout false text = first :: rest) :
    (beginning total file first rest).kind.IsRead := by
  have hlexeme := Cursor.atLexeme_dropLayout false text
  rw [h] at hlexeme
  rcases hlexeme first rfl with ⟨hblank, hhash⟩
  exact ⟨_, hasKind_ofLexeme hblank hhash fun c hc => List.mem_takeWhile_imp hc⟩

end Token

namespace Scanner

/-- Before the end the next token has the kind of a lexeme, wherever the scanner stands. -/
theorem next_isRead {scanner : Scanner} (h : scanner.next.1.kind ≠ .endOfInput) :
    scanner.next.1.kind.IsRead := by
  cases hdrop : Cursor.dropLayout false scanner.cursor.unread with
  | nil =>
      rw [next_of_dropLayout_nil hdrop] at h
      exact absurd rfl h
  | cons first rest =>
      rw [next_of_dropLayout_cons hdrop]
      exact Token.beginning_isRead _ _ hdrop

end Scanner

/-!
# Places in the text
-/

theorem drop_of_drop_append {text piece following : List Char} {offset : Nat}
    (h : text.drop offset = piece ++ following) :
    text.drop (offset + piece.length) = following := by
  rw [← List.drop_drop, h, List.drop_left]

theorem slice_of_drop_append {text piece following : List Char} {offset : Nat}
    (h : text.drop offset = piece ++ following) :
    slice text offset (offset + piece.length) = piece := by
  rw [slice, h, Nat.add_sub_cancel_left, List.take_left]

theorem length_of_drop {text rest : List Char} {offset : Nat}
    (hoffset : offset ≤ text.length) (h : text.drop offset = rest) :
    offset + rest.length = text.length := by
  rw [← h, List.length_drop]
  omega

theorem before_length {text rest : List Char} {offset : Nat}
    (htotal : text.length ≤ Position.maxOffset) (hoffset : offset ≤ text.length)
    (h : text.drop offset = rest) :
    Position.before text.length rest.length = offset := by
  have hlength := length_of_drop hoffset h
  rw [Position.before_eq_sub htotal]
  omega

namespace Token

theorem eq_ofLexeme {token : Token} {lexeme : List Char} {file : String}
    (hstart : token.span.start.file = file) (hstop : token.span.stop.file = file)
    (hkind : token.kind = Kind.ofLexeme lexeme)
    (hlexeme : token.lexeme = String.ofList lexeme) :
    token = ofLexeme lexeme token.start token.stop file := by
  rcases token with ⟨kind, text, ⟨start, startFile⟩, ⟨stop, stopFile⟩⟩
  dsimp only at hstart hstop hkind hlexeme
  rw [hkind, hlexeme, hstart, hstop]
  rfl

section

variable {text : List Char} {file : String}

theorem fits_beginning (file : String)
    (htotal : text.length ≤ Position.maxOffset) {offset : Nat}
    (hoffset : offset ≤ text.length) {first : Char}
    {rest : List Char} (htext : text.drop offset = first :: rest)
    (hblank : ¬ IsBlank first) (hhash : first ≠ '#') :
    (beginning text.length file first rest).Fits text file ∧
      (beginning text.length file first rest).start = offset ∧
      text.drop (beginning text.length file first rest).stop =
        rest.dropWhile (continues first) := by
  have hsplit : text.drop offset =
      (first :: rest.takeWhile (continues first)) ++
        rest.dropWhile (continues first) := by
    rw [List.cons_append, List.takeWhile_append_dropWhile, htext]
  have hlength := length_of_drop hoffset hsplit
  rw [List.length_append] at hlength
  have hstart : (beginning text.length file first rest).start = offset :=
    before_length htotal hoffset htext
  have hdrop := drop_of_drop_append hsplit
  have hstop : (beginning text.length file first rest).stop =
      offset + (first :: rest.takeWhile (continues first)).length :=
    before_length htotal (by omega) hdrop
  have hslice := slice_of_drop_append hsplit
  have hkind := hasKind_ofLexeme hblank hhash
    (fun c (hc : c ∈ rest.takeWhile (continues first)) => List.mem_takeWhile_imp hc)
  have hlexeme := isLexeme_ofLexeme hkind
  refine ⟨?_, hstart, by rw [hstop, hdrop]⟩
  constructor
  · rfl
  · rfl
  · rw [hstart, hstop, List.length_cons]
    omega
  · rw [hstop]
    omega
  · rw [hstart, hstop, hslice]
    rfl
  · rw [hstart, hstop, hslice]
    exact hkind
  · intro c hc
    rw [hstop, ← List.head?_drop, hdrop] at hc
    have hnot := dropWhile_stop hc
    intro hgoesOn
    rw [(hlexeme.goesOn_iff c).mp hgoesOn] at hnot
    cases hnot

theorem beginning_of_fits (htotal : text.length ≤ Position.maxOffset)
    {token : Token} (h : token.Fits text file) :
    exists first rest, text.drop token.start = first :: rest ∧
      AtLexeme (first :: rest) ∧
      token = beginning text.length file first rest ∧
      text.drop token.stop = rest.dropWhile (continues first) := by
  rcases isLexeme_of_hasKind h.kind with ⟨first, run, hslice, hlexeme⟩
  have hsplit := slice_append_drop text (Nat.le_of_lt h.nonempty)
  rw [hslice] at hsplit
  have hstop : forall c, (text.drop token.stop).head? = some c ->
      continues first c = false := by
    intro c hc
    rw [List.head?_drop] at hc
    have hnot := h.longest c hc
    rw [hlexeme.goesOn_iff, Bool.not_eq_true] at hnot
    exact hnot
  have hrun := takeWhile_run (fun c hc => hlexeme.continues hc) hstop
  have hinside := Nat.le_trans (Nat.le_of_lt h.nonempty) h.inside
  refine ⟨first, run ++ text.drop token.stop, hsplit.symm,
    atLexeme_cons hlexeme.not_blank hlexeme.not_hash _, ?_, hrun.right.symm⟩
  have hstart : Position.before text.length
      ((run ++ text.drop token.stop).length + 1) = token.start :=
    before_length htotal hinside hsplit.symm
  have hend : Position.before text.length (text.drop token.stop).length =
      token.stop :=
    before_length htotal h.inside rfl
  have htext := h.lexeme
  rw [hslice] at htext
  rw [beginning, hrun.left, hrun.right, hstart, hend]
  exact eq_ofLexeme h.start_file h.stop_file hlexeme.kind_eq htext

end

end Token

namespace Scanner

section

variable {text : List Char} {file : String}

theorem covers_of_lexes (htotal : text.length ≤ Position.maxOffset)
    {unread : List Char} {tokens : List Token}
    (h : Lexes text.length file unread tokens) {offset : Nat}
    (hoffset : offset ≤ text.length) (hunread : text.drop offset = unread) :
    exists body, tokens = body ++ [Token.atEnd text.length file] ∧
      Covers text file offset body := by
  induction h generalizing offset with
  | @done unread hdrop =>
      rcases Cursor.exists_gap unread with ⟨gap, happend, hgap⟩
      rw [hdrop, List.append_nil] at happend
      rw [hdrop, ← happend, ← hunread] at hgap
      exact ⟨[], rfl, Covers.done hgap⟩
  | @token unread first rest tokens hdrop _ ih =>
      rcases Cursor.exists_gap unread with ⟨gap, happend, hgap⟩
      have hlexeme := Cursor.atLexeme_dropLayout false unread
      rw [hdrop] at happend hgap hlexeme
      rcases hlexeme first rfl with ⟨hblank, hhash⟩
      rw [← hunread] at happend
      have hplace := drop_of_drop_append happend
      have hlength := length_of_drop hoffset happend
      rw [List.length_append] at hlength
      rcases Token.fits_beginning file htotal (by omega) hplace hblank hhash
        with ⟨hfits, hstart, hrest⟩
      rcases ih hfits.inside hrest with ⟨body, hbody, hcovers⟩
      refine ⟨_ :: body, congrArg (_ :: ·) hbody, Covers.token ?_ ?_ hfits hcovers⟩
      · rw [hstart]
        exact Nat.le_add_right _ _
      · rw [hstart, hplace, slice_of_drop_append happend]
        exact hgap

theorem lexes_of_covers (htotal : text.length ≤ Position.maxOffset) {offset : Nat}
    {body : List Token} (h : Covers text file offset body) :
    Lexes text.length file (text.drop offset)
      (body ++ [Token.atEnd text.length file]) := by
  induction h with
  | done hgap =>
      have hdrop := Cursor.dropLayout_of_gap hgap atLexeme_nil
      rw [List.append_nil] at hdrop
      exact Lexes.done hdrop
  | @token offset token body hstart hgap hfits _ ih =>
      rcases Token.beginning_of_fits htotal hfits with
        ⟨first, rest, htext, hlexeme, htoken, hrest⟩
      rw [hrest] at ih
      have hdrop : Cursor.dropLayout false (text.drop offset) = first :: rest := by
        rw [htext] at hgap
        rw [← slice_append_drop text hstart, htext]
        exact Cursor.dropLayout_of_gap hgap hlexeme
      rw [htoken]
      exact Lexes.token hdrop ih

end

end Scanner

theorem Token.atEnd_start {total : Nat} (h : total ≤ Position.maxOffset) (file : String) :
    (Token.atEnd total file).start = total :=
  Position.before_eq_sub h 0

/-- The tokens of a source tokenize the characters that it answers with. -/
theorem Scanner.start_tokenizes {source : Source} (file : String)
    (h : (Source.charsOf source.answers).length ≤ Position.maxOffset) :
    exists body,
      (start source file).tokens =
          body ++ [Token.atEnd (Source.charsOf source.answers).length file] ∧
        Tokenizes (Source.charsOf source.answers) file 0 body := by
  rcases covers_of_lexes h (start_lexes source file) (Nat.zero_le _) List.drop_zero with
    ⟨body, hbody, hcovers⟩
  exact ⟨body, hbody, tokenizes_of_covers hcovers⟩

/--
The tokens of a text tokenize it, the end of the input last, and no other list of
tokens does.
-/
theorem tokenize_exact (text file : String) (h : text.toList.length < Nat.pow 2 32) :
    exists body,
      tokenize text file =
        body ++ [⟨.endOfInput, "", ⟨text.toList.length, file⟩,
          ⟨text.toList.length, file⟩⟩] ∧
      Tokenizes text.toList file 0 body ∧
      forall other, Tokenizes text.toList file 0 other -> other = body := by
  have htotal : text.toList.length ≤ Position.maxOffset := Nat.le_sub_one_of_lt h
  have hend : Token.atEnd text.toList.length file =
      ⟨.endOfInput, "", ⟨text.toList.length, file⟩, ⟨text.toList.length, file⟩⟩ := by
    rw [Token.atEnd, Position.before_eq_sub htotal]
    rfl
  have hlexes := tokenize_lexes text file
  rcases Scanner.covers_of_lexes htotal hlexes (Nat.zero_le _) List.drop_zero with
    ⟨body, hbody, hcovers⟩
  rw [← hend]
  refine ⟨body, hbody, tokenizes_of_covers hcovers, ?_⟩
  intro other hother
  have hlexesOther := Scanner.lexes_of_covers htotal (covers_of_tokenizes hother)
  rw [List.drop_zero] at hlexesOther
  have hsame := Scanner.lexes_unique hlexesOther hlexes
  rw [hbody] at hsame
  exact List.append_cancel_right hsame

theorem tokenize_exact_definition :
    "def half(x) x*.5 # of x".toList.length < Nat.pow 2 32 ∧
      exists body,
        tokenize "def half(x) x*.5 # of x" "shell" =
          body ++ [⟨.endOfInput, "", ⟨23, "shell"⟩, ⟨23, "shell"⟩⟩] ∧
        Tokenizes "def half(x) x*.5 # of x".toList "shell" 0 body ∧
        forall other,
          Tokenizes "def half(x) x*.5 # of x".toList "shell" 0 other -> other = body :=
  ⟨by decide, tokenize_exact "def half(x) x*.5 # of x" "shell" (by decide)⟩

end Kaleidoscope
