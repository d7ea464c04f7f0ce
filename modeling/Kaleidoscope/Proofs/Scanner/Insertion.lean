import Kaleidoscope.Proofs.Scanner.Joining
import Kaleidoscope.Proofs.Scanner.Tokenization

/-!
# Layout between tokens

Layout that is put in before a token or after one moves the tokens that are
behind it and changes nothing else.
-/

namespace Kaleidoscope

/-- Blank characters and comments, each comment with the end of its line. -/
inductive IsLayout : List Char -> Prop where
  | nothing : IsLayout []
  | blank {c : Char} {rest : List Char} :
      IsBlank c -> IsLayout rest -> IsLayout (c :: rest)
  | comment {inside : List Char} {stop : Char} {rest : List Char} :
      (forall c, c ∈ inside -> ¬ IsLineEnd c) -> IsLineEnd stop ->
      IsLayout rest -> IsLayout ('#' :: (inside ++ stop :: rest))

/-- Positions from a place on are further on, those before it stay. -/
def Position.shiftFrom (place distance : Nat) (position : Position) : Position :=
  if place ≤ position.offset then position.shift distance else position

def Token.shiftFrom (place distance : Nat) (token : Token) : Token :=
  if place ≤ token.start then token.shift distance else token

theorem Token.shiftFrom_start (place distance : Nat) (token : Token) :
    (token.shiftFrom place distance).span.start =
      token.span.start.shiftFrom place distance := by
  unfold shiftFrom Position.shiftFrom start
  split
  · rfl
  · rfl

theorem not_continues_of_isLayout {layout : List Char} (h : IsLayout layout) {c : Char}
    (hc : layout.head? = some c) (first : Char) : Token.continues first c = false := by
  rw [Bool.eq_false_iff]
  intro hcontinues
  rcases Token.not_isBlank_of_continues hcontinues with ⟨hblank, hhash⟩
  cases h with
  | nothing => cases hc
  | blank hfirst _ =>
      injection hc with hsame
      rw [hsame] at hfirst
      exact hblank hfirst
  | comment _ _ _ =>
      injection hc with hsame
      exact hhash hsame.symm

namespace Cursor

/-!
# Dropping layout
-/

theorem dropLayout_layout {layout : List Char} (h : IsLayout layout)
    (following : List Char) :
    dropLayout false (layout ++ following) = dropLayout false following := by
  induction h with
  | nothing => rfl
  | blank hblank _ ih => rw [List.cons_append, dropLayout_blank hblank, ih]
  | comment hinside hstop _ ih =>
      rw [List.cons_append, dropLayout_hash, List.append_assoc,
        dropLayout_comment hinside, List.cons_append, dropLayout_lineEnd hstop, ih]

theorem dropLayout_layout_nil {layout : List Char} (h : IsLayout layout) :
    dropLayout false layout = [] := by
  have hdrop := dropLayout_layout h []
  rw [List.append_nil] at hdrop
  exact hdrop

theorem dropLayout_inside_layout {layout : List Char} (h : IsLayout layout) :
    dropLayout true layout = [] := by
  induction h with
  | nothing => rfl
  | @blank c rest _ hrest ih =>
      by_cases hend : IsLineEnd c
      · rw [dropLayout_lineEnd hend]
        exact dropLayout_layout_nil hrest
      · rw [dropLayout_inside hend]
        exact ih
  | comment hinside hstop hrest _ =>
      rw [dropLayout_inside (by simp [IsLineEnd]), dropLayout_comment hinside,
        dropLayout_lineEnd hstop]
      exact dropLayout_layout_nil hrest

theorem dropLayout_append_layout {text layout : List Char}
    (h : dropLayout false text = []) (hlayout : IsLayout layout) :
    dropLayout false (text ++ layout) = [] := by
  rcases dropLayout_append_of_nil h with ⟨inside, happend⟩
  rw [happend layout]
  cases inside with
  | false => exact dropLayout_layout_nil hlayout
  | true => exact dropLayout_inside_layout hlayout

theorem dropLayout_inside_length (c : Char) (rest : List Char) :
    (dropLayout true (c :: rest)).length ≤ rest.length := by
  by_cases hend : IsLineEnd c
  · rw [dropLayout_lineEnd hend]
    exact Scanner.dropLayout_length_le false rest
  · rw [dropLayout_inside hend]
    exact Scanner.dropLayout_length_le true rest

theorem dropLayout_insert {before layout : List Char} {first : Char}
    {rest : List Char} (hlayout : IsLayout layout)
    (h : dropLayout false (before ++ first :: rest) = first :: rest) :
    dropLayout false (before ++ (layout ++ first :: rest)) = first :: rest := by
  cases hbefore : dropLayout false before with
  | cons other further =>
      rw [dropLayout_append_of_cons hbefore] at h
      have hlength := congrArg List.length h
      simp only [List.length_cons, List.length_append] at hlength
      omega
  | nil =>
      rcases dropLayout_append_of_nil hbefore with ⟨inside, happend⟩
      rw [happend] at h ⊢
      cases inside with
      | false =>
          rw [dropLayout_layout hlayout]
          exact h
      | true =>
          have hlength := dropLayout_inside_length first rest
          rw [h, List.length_cons] at hlength
          omega

theorem exists_dropLayout_before {before after : List Char} {first : Char}
    {rest : List Char} (h : dropLayout false (before ++ after) = first :: rest)
    (hlength : after.length ≤ rest.length) :
    exists further, dropLayout false before = first :: further ∧
      rest = further ++ after := by
  cases hbefore : dropLayout false before with
  | cons other further =>
      rw [dropLayout_append_of_cons hbefore] at h
      injection h with hfirst hrest
      exact ⟨further, by rw [hfirst], hrest.symm⟩
  | nil =>
      rcases dropLayout_append_of_nil hbefore with ⟨inside, happend⟩
      have hle := Scanner.dropLayout_length_le inside after
      rw [← happend, h, List.length_cons] at hle
      omega

end Cursor

/-!
# Runs up to a place
-/

theorem run_stops {p : Char -> Bool} {text following : List Char}
    (h : following.length ≤ ((text ++ following).dropWhile p).length) {c : Char}
    (hc : (text.dropWhile p ++ following).head? = some c) : p c = false := by
  rw [List.dropWhile_append] at h
  cases hdrop : text.dropWhile p with
  | nil =>
      rw [hdrop] at h hc
      have hsame := (List.dropWhile_suffix p).eq_of_length_le h
      rw [List.nil_append, ← hsame] at hc
      exact Token.dropWhile_stop hc
  | cons d rest =>
      have hhead : (text.dropWhile p).head? = some c := by
        rw [hdrop] at hc ⊢
        exact hc
      exact Token.dropWhile_stop hhead

theorem head_insert {before layout after : List Char} {c : Char}
    (h : (before ++ (layout ++ after)).head? = some c) :
    (before ++ after).head? = some c ∨ layout.head? = some c := by
  cases before with
  | cons d before => exact Or.inl h
  | nil =>
      cases layout with
      | nil => exact Or.inl h
      | cons d layout => exact Or.inr h

namespace Scanner

/-!
# Places of tokens
-/

section

variable {total : Nat} {file : String} {text : List Char} {tokens : List Token}

theorem beginning_start (htotal : total ≤ Position.maxOffset) (first : Char)
    (rest : List Char) :
    (Token.beginning total file first rest).start = total - (rest.length + 1) :=
  Position.before_eq_sub htotal (rest.length + 1)

theorem beginning_stop (htotal : total ≤ Position.maxOffset) (first : Char)
    (rest : List Char) :
    (Token.beginning total file first rest).stop =
      total - (rest.dropWhile (Token.continues first)).length :=
  Position.before_eq_sub htotal (rest.dropWhile (Token.continues first)).length

theorem lexes_bounds (h : Lexes total file text tokens) (htext : text.length ≤ total)
    (htotal : total ≤ Position.maxOffset) {token : Token} (hmem : token ∈ tokens) :
    total - text.length ≤ token.start ∧ token.start ≤ token.stop := by
  induction h with
  | done _ =>
      rw [List.mem_singleton.mp hmem]
      have hstart := Token.atEnd_start htotal file
      exact ⟨by omega, Nat.le_refl _⟩
  | @token text first rest tokens hdrop _ ih =>
      have hlength := dropLayout_length_le false text
      have hrest := List.length_dropWhile_le (Token.continues first) rest
      rw [hdrop, List.length_cons] at hlength
      rcases List.mem_cons.mp hmem with hsame | hmem
      · rw [hsame, beginning_start htotal, beginning_stop htotal]
        omega
      · have hbounds := ih (by omega) hmem
        omega

theorem lexes_shiftFrom {place distance : Nat} (h : Lexes total file text tokens)
    (htext : text.length ≤ total) (htotal : total + distance ≤ Position.maxOffset)
    (hplace : place ≤ total - text.length) :
    Lexes (total + distance) file text (tokens.map (Token.shiftFrom place distance)) := by
  have hmap : tokens.map (Token.shiftFrom place distance) =
      tokens.map (Token.shift distance) := by
    apply List.map_congr_left
    intro token hmem
    have hbounds := lexes_bounds h htext (by omega) hmem
    exact if_pos (by omega)
  rw [hmap]
  exact lexes_shift h htext htotal

end

/-!
# Tokens with layout between them
-/

section

variable {total : Nat} {file : String} {layout after : List Char}

theorem lexes_insert_first (hlayout : IsLayout layout) {tokens : List Token}
    (htotal : total + layout.length ≤ Position.maxOffset)
    (h : Lexes total file after tokens) (hafter : after.length ≤ total) :
    Lexes (total + layout.length) file (layout ++ after)
      (tokens.map (Token.shiftFrom (total - after.length) layout.length)) :=
  lexes_of_dropLayout (Cursor.dropLayout_layout hlayout after)
    (lexes_shiftFrom h hafter htotal (Nat.le_refl _))

/-- Before a lexeme no comment is open, so what is put in there is dropped. -/
theorem lexes_insert_before (hlayout : IsLayout layout) {before rest : List Char}
    {first : Char} {tokens : List Token}
    (htotal : total + layout.length ≤ Position.maxOffset)
    (hdrop : Cursor.dropLayout false (before ++ first :: rest) = first :: rest)
    (h : Lexes total file (before ++ first :: rest) tokens)
    (hrest : rest.length < total) :
    Lexes (total + layout.length) file (before ++ (layout ++ first :: rest))
      (tokens.map (Token.shiftFrom (total - (rest.length + 1)) layout.length)) := by
  have hlexeme := Cursor.atLexeme_dropLayout false (before ++ first :: rest)
  rw [hdrop] at hlexeme
  have halone := Cursor.dropLayout_of_atLexeme hlexeme
  have hinserted := Cursor.dropLayout_insert hlayout hdrop
  have htokens := lexes_of_dropLayout (halone.trans hdrop.symm) h
  exact lexes_of_dropLayout (hinserted.trans halone.symm)
    (lexes_shiftFrom htokens hrest htotal (Nat.le_refl _))

/-- After the last lexeme a comment may be open, and layout does not end the text. -/
theorem lexes_insert_last (hlayout : IsLayout layout) {text : List Char}
    (htotal : total + layout.length ≤ Position.maxOffset)
    (hdrop : Cursor.dropLayout false text = []) :
    Lexes (total + layout.length) file (text ++ layout)
      [(Token.atEnd total file).shiftFrom total layout.length] := by
  have hend := Token.atEnd_start (Nat.le_trans (Nat.le_add_right _ _) htotal) file
  rw [Token.shiftFrom, hend, if_pos (Nat.le_refl _), Token.atEnd_shift htotal]
  exact Lexes.done (Cursor.dropLayout_append_layout hdrop hlayout)

theorem beginning_insert (file : String) (hlayout : IsLayout layout)
    (htotal : total + layout.length ≤ Position.maxOffset) {first : Char}
    {rest : List Char} (hrest : (rest ++ after).length < total)
    (hstop : after.length ≤
      ((rest ++ after).dropWhile (Token.continues first)).length) :
    (rest ++ after).dropWhile (Token.continues first) =
        rest.dropWhile (Token.continues first) ++ after ∧
      (rest ++ (layout ++ after)).dropWhile (Token.continues first) =
        rest.dropWhile (Token.continues first) ++ (layout ++ after) ∧
      (Token.beginning total file first (rest ++ after)).shiftFrom
          (total - after.length) layout.length =
        Token.beginning (total + layout.length) file first
          (rest ++ (layout ++ after)) := by
  have halone := run_append fun c hc => run_stops hstop hc
  have hinserted := run_append fun c hc => by
    rcases head_insert hc with hc | hc
    · exact run_stops hstop hc
    · exact not_continues_of_isLayout hlayout hc first
  refine ⟨halone.right, hinserted.right, ?_⟩
  have hsmall : total ≤ Position.maxOffset := by omega
  have hdrop := List.length_dropWhile_le (Token.continues first) rest
  rw [List.length_append] at hrest
  have hstart : (Token.beginning total file first (rest ++ after)).start =
      total - (rest.length + after.length + 1) := by
    rw [beginning_start hsmall, List.length_append]
  rw [Token.shiftFrom, hstart, if_neg (by omega), Token.beginning, Token.beginning,
    halone.left, halone.right, hinserted.left, hinserted.right]
  simp only [Position.before_eq_sub htotal, Position.before_eq_sub hsmall,
    List.length_append]
  congr 1
  · omega
  · omega

theorem place_cases {first : Char} {rest : List Char} {tokens : List Token}
    (htotal : total ≤ Position.maxOffset) (hrest : rest.length < total)
    (hafter : after.length ≤ total)
    (h : Lexes total file (rest.dropWhile (Token.continues first)) tokens)
    (hplace : exists token, token ∈ Token.beginning total file first rest :: tokens ∧
      (total - after.length = token.start ∨ total - after.length = token.stop)) :
    after.length = rest.length + 1 ∨
      after.length ≤ (rest.dropWhile (Token.continues first)).length ∧
        (after.length = (rest.dropWhile (Token.continues first)).length ∨
          exists token, token ∈ tokens ∧
            (total - after.length = token.start ∨
              total - after.length = token.stop)) := by
  have hdrop := List.length_dropWhile_le (Token.continues first) rest
  rcases hplace with ⟨token, hmem, hplace⟩
  rcases List.mem_cons.mp hmem with hsame | hmem
  · rw [hsame, beginning_start htotal, beginning_stop htotal] at hplace
    rcases hplace with hplace | hplace
    · exact Or.inl (by omega)
    · have hends : after.length = (rest.dropWhile (Token.continues first)).length := by
        omega
      exact Or.inr ⟨Nat.le_of_eq hends, Or.inl hends⟩
  · have hbounds := lexes_bounds h (by omega) htotal hmem
    exact Or.inr ⟨by omega, Or.inr ⟨token, hmem, hplace⟩⟩

/-- Layout may be put in where a token begins and where a token ends. -/
theorem lexes_insert (hlayout : IsLayout layout)
    (htotal : total + layout.length ≤ Position.maxOffset) {text before : List Char}
    {tokens : List Token} (h : Lexes total file text tokens)
    (htext : text = before ++ after) (hlength : text.length ≤ total)
    (hplace : exists token, token ∈ tokens ∧
      (total - after.length = token.start ∨ total - after.length = token.stop)) :
    Lexes (total + layout.length) file (before ++ (layout ++ after))
      (tokens.map (Token.shiftFrom (total - after.length) layout.length)) := by
  have hsmall : total ≤ Position.maxOffset := by omega
  have hafter : after.length ≤ total := by
    rw [htext, List.length_append] at hlength
    omega
  induction h generalizing before with
  | @done text hdrop =>
      rcases hplace with ⟨token, hmem, hplace⟩
      have hend := Token.atEnd_start hsmall file
      rw [List.mem_singleton.mp hmem] at hplace
      have hnil : after = [] := by
        apply List.length_eq_zero_iff.mp
        rcases hplace with hplace | hplace
        · have hsame := hplace.trans hend
          omega
        · have hsame := hplace.trans hend
          omega
      rw [hnil, List.append_nil] at htext ⊢
      rw [htext] at hdrop
      exact lexes_insert_last hlayout htotal hdrop
  | @token text first rest tokens hdrop hrest ih =>
      have hwhole := Lexes.token hdrop hrest
      have hfirst := dropLayout_length_le false text
      rw [hdrop, List.length_cons] at hfirst
      rw [htext] at hdrop hwhole
      rcases place_cases hsmall (by omega) hafter hrest hplace with
        hbegins | ⟨hstop, hplace⟩
      · rcases Cursor.exists_gap (before ++ after) with ⟨gap, hgap, _⟩
        rw [hdrop] at hgap
        have hsame := List.append_inj_right' hgap (by rw [hbegins, List.length_cons])
        rw [hbegins]
        rw [hsame] at hdrop hwhole ⊢
        exact lexes_insert_before hlayout htotal hdrop hwhole (by omega)
      · have hdropped := List.length_dropWhile_le (Token.continues first) rest
        rcases Cursor.exists_dropLayout_before hdrop (by omega) with
          ⟨further, hbefore, hfurther⟩
        rw [hfurther] at hrest hstop hplace hfirst hdropped ⊢
        rcases beginning_insert file hlayout htotal (by omega) hstop with
          ⟨halone, hinserted, hsame⟩
        rw [List.map_cons, hsame]
        apply Lexes.token (Cursor.dropLayout_append_of_cons hbefore _)
        rw [hinserted]
        rcases hplace with hends | hplace
        · rw [halone, List.length_append] at hends
          have hnil : further.dropWhile (Token.continues first) = [] :=
            List.length_eq_zero_iff.mp (by omega)
          rw [halone, hnil] at hrest
          rw [hnil]
          exact lexes_insert_first hlayout htotal hrest hafter
        · rw [hfurther] at ih
          exact ih halone (by omega) hplace

end

end Scanner

/-- Layout at the start or the end of a token moves the tokens from there on. -/
theorem tokenize_layout {before layout after file : String}
    (hlayout : IsLayout layout.toList)
    (hplace : exists token, token ∈ tokenize (before ++ after) file ∧
      (before.toList.length = token.start ∨ before.toList.length = token.stop))
    (h : (before ++ layout ++ after).toList.length < Nat.pow 2 32) :
    tokenize (before ++ layout ++ after) file =
      (tokenize (before ++ after) file).map
        (Token.shiftFrom before.toList.length layout.toList.length) := by
  have hlexes := tokenize_lexes (before ++ after) file
  have hwhole := tokenize_lexes (before ++ layout ++ after) file
  have htotal := Nat.le_sub_one_of_lt h
  simp only [String.toList_append, List.append_assoc] at hlexes hwhole htotal
  have hsum : (before.toList ++ (layout.toList ++ after.toList)).length =
      (before.toList ++ after.toList).length + layout.toList.length := by
    simp only [List.length_append]
    omega
  have hbefore : (before.toList ++ after.toList).length - after.toList.length =
      before.toList.length := by
    rw [List.length_append, Nat.add_sub_cancel]
  rw [hsum] at hwhole htotal
  rw [← hbefore] at hplace ⊢
  exact Scanner.lexes_unique hwhole
    (Scanner.lexes_insert hlayout htotal hlexes rfl (Nat.le_refl _) hplace)

end Kaleidoscope
