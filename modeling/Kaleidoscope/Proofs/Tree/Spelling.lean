import Kaleidoscope.Proofs.Tree.Kinds

/-!
# Source forms as they are read

The source form of a tree that can be written spells the kinds of the tree,
whatever follows it, as long as that does not go on with the last name or number.
-/

namespace Kaleidoscope

/-- The text adds the kinds in front of everything that is separate from it. -/
def Prepends (text : List Char) (kinds : List Token.Kind) : Prop :=
  forall (following : List Char) (rest : List Token.Kind),
    Separates following -> Spells following rest ->
      Spells (text ++ following) (kinds ++ rest)

/-!
# Punctuation
-/

theorem spells_punctuation {c : Char} (hblank : ¬ IsBlank c) (hhash : c ≠ '#')
    (halpha : c.isAlpha = false) (hnumber : Token.isNumberPart c = false)
    {following : List Char} {rest : List Token.Kind} (h : Spells following rest) :
    Spells (c :: following) (.character c :: rest) := by
  rcases Bool.or_eq_false_iff.mp hnumber with ⟨hdigit, hpoint⟩
  exact spells_character
    (Token.HasKind.character hblank hhash (by simpa using hpoint) halpha hdigit) h

section

variable {following : List Char} {rest : List Token.Kind}

theorem spells_open (h : Spells following rest) :
    Spells ('(' :: following) (.character '(' :: rest) :=
  spells_punctuation (by simp [IsBlank]) (by decide) rfl rfl h

theorem spells_close (h : Spells following rest) :
    Spells (')' :: following) (.character ')' :: rest) :=
  spells_punctuation (by simp [IsBlank]) (by decide) rfl rfl h

theorem spells_comma (h : Spells following rest) :
    Spells (',' :: following) (.character ',' :: rest) :=
  spells_punctuation (by simp [IsBlank]) (by decide) rfl rfl h

theorem spells_semicolon (h : Spells following rest) :
    Spells (';' :: following) (.character ';' :: rest) :=
  spells_punctuation (by simp [IsBlank]) (by decide) rfl rfl h

theorem spells_space (h : Spells following rest) : Spells (' ' :: following) rest :=
  spells_blank (by simp [IsBlank]) h

end

/-!
# Expressions
-/

theorem prepends_lexeme {lexeme : List Char} {kind : Token.Kind}
    (h : Token.HasKind lexeme kind) : Prepends lexeme [kind] :=
  fun _ _ hseparates hrest => spells_word h hseparates hrest

theorem Binary64.hasKind_sourceForm {value : Binary64} (h : value.Readable) :
    Token.HasKind value.sourceForm.toList (.number value) := by
  rcases h with ⟨m, hm, hvalue⟩
  rcases value_sourceForm hm with ⟨hread, hnumeral⟩
  have hkind := Token.HasKind.number hnumeral.nonempty
    (fun c hc => hnumeral.parts hc)
  rw [hread] at hkind
  rw [hvalue]
  exact hkind

theorem separates_space (rest : List Char) : Separates (' ' :: rest) :=
  separates_cons rfl rfl rest

theorem separates_close (rest : List Char) : Separates (')' :: rest) :=
  separates_cons rfl rfl rest

theorem prepends_binary {left right : List Char} {leftKinds rightKinds : List Token.Kind}
    {op : Char} (hop : Token.HasKind [op] (.character op)) (hleft : Prepends left leftKinds)
    (hright : Prepends right rightKinds) :
    Prepends ('(' :: (left ++ ' ' :: op :: ' ' :: (right ++ [')'])))
      (.character '(' ::
        ((leftKinds ++ .character op :: rightKinds) ++ [.character ')'])) := by
  intro following rest _ hrest
  have hspells := spells_open (hleft _ _ (separates_space _) (spells_space
    (spells_character hop (spells_space
      (hright _ _ (separates_close _) (spells_close hrest))))))
  simpa only [List.cons_append, List.append_assoc, List.nil_append] using hspells

theorem prepends_call {callee inside : List Char} {kind : Token.Kind}
    {kinds : List Token.Kind} (hcallee : Token.HasKind callee kind)
    (hinside : Prepends inside kinds) :
    Prepends (callee ++ '(' :: (inside ++ [')']))
      (kind :: .character '(' :: (kinds ++ [.character ')'])) := by
  intro following rest _ hrest
  have hspells := spells_word hcallee (separates_cons rfl rfl _) (spells_open
    (hinside _ _ (separates_close _) (spells_close hrest)))
  simpa only [List.cons_append, List.append_assoc, List.nil_append] using hspells

theorem prepends_nil : Prepends [] [] :=
  fun _ _ _ hrest => hrest

theorem prepends_comma {argument others : List Char} {kinds further : List Token.Kind}
    (h : Prepends argument kinds) (hothers : Prepends others further) :
    Prepends (argument ++ ',' :: ' ' :: others)
      (kinds ++ .character ',' :: further) := by
  intro following rest hseparates hrest
  have hspells := h _ _ (separates_cons rfl rfl _) (spells_comma (spells_space
    (hothers _ _ hseparates hrest)))
  simpa only [List.cons_append, List.append_assoc, List.nil_append] using hspells

namespace Expr

theorem toList_sourceForm_binary (op : Char) (left right : Expr) :
    (binary op left right).sourceForm.toList =
      '(' :: (left.sourceForm.toList ++ ' ' :: op :: ' ' ::
        (right.sourceForm.toList ++ [')'])) := by
  simp only [sourceForm, String.toList_append, String.toList_singleton,
    List.append_assoc]
  rfl

theorem toList_sourceForm_call (callee : String) (arguments : List Expr) :
    (call callee arguments).sourceForm.toList =
      callee.toList ++ '(' :: ((argumentForms arguments).toList ++ [')']) := by
  simp only [sourceForm, String.toList_append, List.append_assoc]
  rfl

theorem toList_argumentForms_cons (argument next : Expr) (rest : List Expr) :
    (argumentForms (argument :: next :: rest)).toList =
      argument.sourceForm.toList ++ ',' :: ' ' ::
        (argumentForms (next :: rest)).toList := by
  simp only [argumentForms, String.toList_append, List.append_assoc]
  rfl

section

variable {operators : Operators}

mutual

theorem prepends_sourceForm : (value : Expr) -> value.Writable operators ->
    Prepends value.sourceForm.toList value.kinds
  | .number value, h =>
      prepends_lexeme (Binary64.hasKind_sourceForm ((Binary64.readable_iff value).mpr h))
  | .var name, h => prepends_lexeme h
  | .binary op left right, h => by
      rcases h with ⟨_, hop, hleft, hright⟩
      rw [toList_sourceForm_binary, kinds]
      exact prepends_binary hop (left.prepends_sourceForm hleft)
        (right.prepends_sourceForm hright)
  | .call callee arguments, h => by
      rw [toList_sourceForm_call, kinds]
      exact prepends_call h.left (prepends_argumentForms arguments h.right)

theorem prepends_argumentForms : (arguments : List Expr) ->
    AllWritable operators arguments ->
    Prepends (argumentForms arguments).toList (argumentKinds arguments)
  | [], _ => prepends_nil
  | [argument], h => by
      rw [argumentForms, argumentKinds]
      exact argument.prepends_sourceForm h.left
  | argument :: next :: rest, h => by
      rw [toList_argumentForms_cons, argumentKinds]
      exact prepends_comma (argument.prepends_sourceForm h.left)
        (prepends_argumentForms (next :: rest) h.right)

end

end

end Expr

/-!
# Top-level units
-/

theorem prepends_space {first others : List Char} {kinds further : List Token.Kind}
    (h : Prepends first kinds) (hothers : Prepends others further) :
    Prepends (first ++ ' ' :: others) (kinds ++ further) := by
  intro following rest hseparates hrest
  have hspells := h _ _ (separates_space _) (spells_space
    (hothers _ _ hseparates hrest))
  simpa only [List.cons_append, List.append_assoc] using hspells

theorem toList_parameters_cons (name next : String) (names : List String) :
    (" ".intercalate (name :: next :: names)).toList =
      name.toList ++ ' ' :: (" ".intercalate (next :: names)).toList := by
  simp only [String.intercalate_cons_cons, String.toList_append, List.append_assoc]
  rfl

theorem prepends_parameters {names : List String}
    (h : forall name, name ∈ names -> IsName name) :
    Prepends (" ".intercalate names).toList (names.map .identifier) := by
  induction names with
  | nil => exact prepends_nil
  | cons name names ih =>
      have hname := prepends_lexeme (h name List.mem_cons_self)
      have hothers := ih fun other hother => h other (List.mem_cons_of_mem name hother)
      cases names with
      | nil =>
          rw [String.intercalate_singleton]
          exact hname
      | cons next names =>
          rw [toList_parameters_cons]
          exact prepends_space hname hothers

theorem Prototype.toList_sourceForm (prototype : Prototype) :
    prototype.sourceForm.toList = prototype.name.toList ++ '(' ::
      ((" ".intercalate prototype.parameters).toList ++ [')']) := by
  simp only [sourceForm, String.toList_append, List.append_assoc]
  rfl

theorem Prototype.prepends_sourceForm {prototype : Prototype}
    (h : prototype.Readable) :
    Prepends prototype.sourceForm.toList prototype.kinds := by
  rw [toList_sourceForm]
  exact prepends_call h.name (prepends_parameters fun name hname => h.parameters hname)

theorem not_isAnonymous_of_isName {prototype : Prototype}
    (h : IsName prototype.name) : prototype.isAnonymous = false := by
  rcases Token.isLexeme_of_hasKind h with ⟨first, rest, hcons, _⟩
  cases hanonymous : prototype.isAnonymous with
  | false => rfl
  | true =>
      have hempty : prototype.name = "" := String.isEmpty_iff.mp hanonymous
      rw [hempty] at hcons
      cases hcons

namespace TopLevel

theorem toList_sourceForm_definition {content : Definition}
    (h : IsName content.prototype.name) :
    (definition content).sourceForm.toList =
      "def".toList ++ ' ' :: (content.prototype.sourceForm.toList ++ ' ' ::
        content.body.sourceForm.toList) := by
  simp only [sourceForm, Definition.sourceForm, not_isAnonymous_of_isName h,
    Bool.false_eq_true, if_false, String.toList_append, List.append_assoc]
  rfl

theorem toList_sourceForm_external (prototype : Prototype) :
    (external prototype).sourceForm.toList =
      "extern".toList ++ ' ' :: prototype.sourceForm.toList := by
  simp only [sourceForm, String.toList_append]
  rfl

theorem sourceForm_expression {content : Definition} (h : content.prototype = .anonymous) :
    (expression content).sourceForm = content.body.sourceForm := by
  have hanonymous : content.prototype.isAnonymous = true := by
    rw [h]
    rfl
  rw [sourceForm, Definition.sourceForm, if_pos hanonymous]

theorem prepends_sourceForm {unit : TopLevel} (h : unit.Readable) :
    Prepends unit.sourceForm.toList unit.kinds := by
  cases unit with
  | definition content =>
      rw [toList_sourceForm_definition h.left.name]
      exact prepends_space (prepends_lexeme Token.HasKind.define)
        (prepends_space (Prototype.prepends_sourceForm h.left)
          (content.body.prepends_sourceForm (content.body.writable_of_readable h.right)))
  | external prototype =>
      rw [toList_sourceForm_external]
      exact prepends_space (prepends_lexeme Token.HasKind.external)
        (Prototype.prepends_sourceForm h)
  | expression content =>
      rw [sourceForm_expression h.left]
      exact content.body.prepends_sourceForm (content.body.writable_of_readable h.right)

end TopLevel

end Kaleidoscope
