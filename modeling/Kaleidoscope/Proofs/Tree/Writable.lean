import Kaleidoscope.Proofs.Tree.Readable

/-!
# Trees that can be written

The source form of a tree can be read with a table of operators if its names are
identifiers, its numbers need no sign, and its operators are characters that
stand alone in a text and have a precedence in the table.  What is derived from
the tokens of a text can be written with the operators it was derived with.
-/

namespace Kaleidoscope

theorem Binary64.readable_iff (x : Binary64) :
    x.Readable <-> x.isNaN = false ∧ x.isNegative = false := by
  constructor
  · intro h
    refine ⟨isNaN_of_readable h, ?_⟩
    rcases h with ⟨m, hle, hx⟩
    rw [hx]
    exact isNegative_ofMagnitude hle
  · rintro ⟨hnan, hsign⟩
    have hsmall := of_decide_eq_false hsign
    have hle := of_decide_eq_false hnan
    rw [magnitude, Nat.mod_eq_of_lt (Nat.not_le.mp hsmall)] at hle
    refine ⟨x.bits.toNat, Nat.not_lt.mp hle, ?_⟩
    rw [ofMagnitude, UInt64.ofNat_toNat]

mutual

/-- The source form of the tree can be read with the operators. -/
def Expr.Writable (operators : Operators) : Expr -> Prop
  | .number value => value.isNaN = false ∧ value.isNegative = false
  | .var name => IsName name
  | .binary op left right =>
      operators.IsOperator (.character op) ∧ Token.HasKind [op] (.character op) ∧
        left.Writable operators ∧ right.Writable operators
  | .call callee arguments => IsName callee ∧ Expr.AllWritable operators arguments

def Expr.AllWritable (operators : Operators) : List Expr -> Prop
  | [] => True
  | argument :: rest => argument.Writable operators ∧ Expr.AllWritable operators rest

end

def TopLevel.Writable (operators : Operators) : TopLevel -> Prop
  | .definition content => content.prototype.Readable ∧ content.body.Writable operators
  | .external prototype => prototype.Readable
  | .expression content =>
      content.prototype = .anonymous ∧ content.body.Writable operators

def Phrase.Writable (operators : Operators) : Phrase -> Prop
  | .primary value | .expression value => value.Writable operators
  | .operations values => forall operation, operation ∈ values ->
      operators.IsOperator (.character operation.1) ∧
        Token.HasKind [operation.1] (.character operation.1) ∧
        operation.2.Writable operators
  | .arguments values => Expr.AllWritable operators values
  | .parameters names => forall name, name ∈ names -> IsName name
  | .prototype value => value.Readable
  | .unit value => value.Writable operators

/-!
# Trees of derivations
-/

theorem hasKind_of_isRead {c : Char} (h : (Token.Kind.character c).IsRead) :
    Token.HasKind [c] (.character c) := by
  rcases h with ⟨lexeme, hkind⟩
  cases hkind with
  | character hblank hhash hpoint halpha hdigit =>
      exact Token.HasKind.character hblank hhash hpoint halpha hdigit

section

variable {operators : Operators}

theorem tree_writable {left : Expr} {operations : List Operation}
    (hleft : left.Writable operators)
    (h : (Phrase.operations operations).Writable operators) :
    (operators.tree left operations).Writable operators := by
  induction left, operations using Operators.tree.induct operators with
  | case1 left =>
      rw [Operators.tree_nil]
      exact hleft
  | case2 left first rest split ihleft ihright =>
      have happend : split.1 ++ split.2.1 :: split.2.2 = first :: rest :=
        operators.splitLowest_append first rest
      have hall : forall operation, operation ∈ split.1 ++ split.2.1 :: split.2.2 ->
          operators.IsOperator (.character operation.1) ∧
            Token.HasKind [operation.1] (.character operation.1) ∧
            operation.2.Writable operators := by
        rw [happend]
        exact h
      rcases hall split.2.1 (List.mem_append_right _ List.mem_cons_self) with
        ⟨hoperator, hkind, hright⟩
      unfold Operators.tree
      refine ⟨hoperator, hkind, ihleft hleft ?_, ihright hright ?_⟩
      · intro operation hmem
        exact hall operation (List.mem_append_left _ hmem)
      · intro operation hmem
        exact hall operation (List.mem_append_right _ (List.mem_cons_of_mem _ hmem))

/-- What is derived from kinds of lexemes can be written. -/
theorem derives_writable {kinds : List Token.Kind} {phrase : Phrase}
    (h : Derives operators kinds phrase) (hread : AllRead kinds) :
    phrase.Writable operators := by
  induction h with
  | number value =>
      exact (Binary64.readable_iff value).mp (readable_of_isRead (allRead_cons hread).left)
  | var name => exact isName_of_isRead (allRead_cons hread).left
  | emptyCall name => exact ⟨isName_of_isRead (allRead_cons hread).left, trivial⟩
  | call name _ ih =>
      rcases allRead_cons hread with ⟨hname, hread⟩
      rcases allRead_append (allRead_cons hread).right with ⟨hinside, _⟩
      exact ⟨isName_of_isRead hname, ih hinside⟩
  | grouping _ ih =>
      rcases allRead_append (allRead_cons hread).right with ⟨hinside, _⟩
      exact ih hinside
  | noOperation =>
      intro operation hoperation
      cases hoperation
  | operation hop _ _ ihoperand ihothers =>
      rcases allRead_cons hread with ⟨hkind, hread⟩
      rcases allRead_append hread with ⟨hoperand, hothers⟩
      intro operation hoperation
      rcases List.mem_cons.mp hoperation with hfirst | hrest
      · rw [hfirst]
        exact ⟨hop, hasKind_of_isRead hkind, ihoperand hoperand⟩
      · exact ihothers hothers operation hrest
  | expression _ _ ihoperand ihothers =>
      rcases allRead_append hread with ⟨hoperand, hothers⟩
      exact tree_writable (ihoperand hoperand) (ihothers hothers)
  | lastArgument _ ih => exact ⟨ih hread, trivial⟩
  | nextArgument _ _ ihfirst ihothers =>
      rcases allRead_append hread with ⟨hfirst, hothers⟩
      exact ⟨ihfirst hfirst, ihothers (allRead_cons hothers).right⟩
  | noParameter =>
      intro name hname
      cases hname
  | parameter name _ ih =>
      rcases allRead_cons hread with ⟨hfirst, hothers⟩
      intro other hother
      rcases List.mem_cons.mp hother with hsame | hrest
      · rw [hsame]
        exact isName_of_isRead hfirst
      · exact ih hothers other hrest
  | prototype name _ ih =>
      rcases allRead_cons hread with ⟨hname, hread⟩
      rcases allRead_append (allRead_cons hread).right with ⟨hinside, _⟩
      exact ⟨isName_of_isRead hname, fun hparameter => ih hinside _ hparameter⟩
  | definition _ _ ihheader ihbody =>
      rcases allRead_append (allRead_cons hread).right with ⟨hheader, hbody⟩
      exact ⟨ihheader hheader, ihbody hbody⟩
  | external _ ih => exact ih (allRead_cons hread).right
  | bare _ ih => exact ⟨rfl, ih hread⟩

end

/-!
# Standard operators
-/

theorem standard_isOperator {op : Char}
    (h : Operators.standard.IsOperator (.character op)) :
    op ∈ ['*', '-', '+', '<'] := by
  rcases h with ⟨c, precedence, hkind, hop⟩
  injection hkind with hsame
  rw [hsame]
  by_contra hmem
  simp only [List.mem_cons, List.not_mem_nil, or_false, not_or] at hmem
  rcases hmem with ⟨hproduct, hminus, hplus, hless⟩
  simp [Operators.precedence?, Operators.standard, Operators.install, Operators.empty,
    List.lookup_cons, beq_false_of_ne hproduct, beq_false_of_ne hminus,
    beq_false_of_ne hplus, beq_false_of_ne hless] at hop

theorem hasKind_standard {op : Char}
    (h : Operators.standard.IsOperator (.character op)) :
    Token.HasKind [op] (.character op) := by
  have hmem := standard_isOperator h
  simp only [List.mem_cons, List.not_mem_nil, or_false] at hmem
  rcases hmem with hsame | hsame | hsame | hsame
  all_goals
    rw [hsame]
    exact Token.HasKind.character (by simp [IsBlank]) (by decide) (by decide) rfl rfl

mutual

theorem Expr.writable_of_readable : (value : Expr) -> value.Readable ->
    value.Writable .standard
  | .number value, h => (Binary64.readable_iff value).mp h
  | .var _, h => h
  | .binary _ left right, h =>
      ⟨h.left, hasKind_standard h.left, left.writable_of_readable h.right.left,
        right.writable_of_readable h.right.right⟩
  | .call _ arguments, h => ⟨h.left, Expr.allWritable_of_allReadable arguments h.right⟩

theorem Expr.allWritable_of_allReadable : (arguments : List Expr) ->
    Expr.AllReadable arguments -> Expr.AllWritable .standard arguments
  | [], _ => trivial
  | argument :: rest, h =>
      ⟨argument.writable_of_readable h.left, Expr.allWritable_of_allReadable rest h.right⟩

end

mutual

theorem Expr.readable_of_writable : (value : Expr) -> value.Writable .standard ->
    value.Readable
  | .number value, h => (Binary64.readable_iff value).mpr h
  | .var _, h => h
  | .binary _ left right, h =>
      ⟨h.left, left.readable_of_writable h.right.right.left,
        right.readable_of_writable h.right.right.right⟩
  | .call _ arguments, h => ⟨h.left, Expr.allReadable_of_allWritable arguments h.right⟩

theorem Expr.allReadable_of_allWritable : (arguments : List Expr) ->
    Expr.AllWritable .standard arguments -> Expr.AllReadable arguments
  | [], _ => trivial
  | argument :: rest, h =>
      ⟨argument.readable_of_writable h.left, Expr.allReadable_of_allWritable rest h.right⟩

end

theorem TopLevel.readable_of_writable {unit : TopLevel} (h : unit.Writable .standard) :
    unit.Readable := by
  cases unit with
  | definition content => exact ⟨h.left, content.body.readable_of_writable h.right⟩
  | external prototype => exact h
  | expression content => exact ⟨h.left, content.body.readable_of_writable h.right⟩

end Kaleidoscope
