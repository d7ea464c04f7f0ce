import Kaleidoscope.Proofs.Grammar.Completeness

/-!
# Unambiguity

Two phrases of one category at the beginning of the same kinds are equally long
if each of them ends where its category may end.  So what a derivation has used
is fixed by the kinds alone, and no parser is needed to compare two of them.
-/

namespace Kaleidoscope

/-!
# Categories of phrases
-/

inductive Category where
  | primary
  | operations
  | expression
  | arguments
  | parameters
  | prototype
  | unit

def Phrase.category : Phrase -> Category
  | .primary _ => .primary
  | .operations _ => .operations
  | .expression _ => .expression
  | .arguments _ => .arguments
  | .parameters _ => .parameters
  | .prototype _ => .prototype
  | .unit _ => .unit

def Uncalled (kinds following : List Token.Kind) : Prop :=
  EndsInIdentifier kinds -> following.head? ≠ some (.character '(')

namespace Category

def Derived (operators : Operators) (kinds : List Token.Kind) : Category -> Prop
  | .primary => exists value, Derives operators kinds (.primary value)
  | .operations => exists values, Derives operators kinds (.operations values)
  | .expression => exists value, Derives operators kinds (.expression value)
  | .arguments => exists values, Derives operators kinds (.arguments values)
  | .parameters => exists names, Derives operators kinds (.parameters names)
  | .prototype => exists value, Derives operators kinds (.prototype value)
  | .unit => exists value, Derives operators kinds (.unit value)

/-- A phrase of the category may end before what follows its kinds. -/
def EndsBefore (operators : Operators) (kinds following : List Token.Kind) :
    Category -> Prop
  | .primary => Uncalled kinds following
  | .operations | .expression | .unit =>
      forall next, following.head? = some next -> Stops operators kinds next
  | .arguments => following.head? = some (.character ')')
  | .parameters => forall name, following.head? ≠ some (.identifier name)
  | .prototype => True

end Category

/-!
# Ends of phrases
-/

section

variable {operators : Operators} {kinds others following rest : List Token.Kind}

theorem endsInIdentifier_of_suffix (kinds : List Token.Kind)
    (h : EndsInIdentifier others) : EndsInIdentifier (kinds ++ others) := by
  cases others with
  | nil =>
      rcases h with ⟨name, hlast⟩
      cases hlast
  | cons kind others =>
      exact (endsInIdentifier_append (List.cons_ne_nil kind others)).mpr h

theorem stops_of_append (kinds : List Token.Kind) {next : Token.Kind}
    (h : Stops operators (kinds ++ others) next) : Stops operators others next where
  not_operator := h.not_operator
  not_called hlast := h.not_called (endsInIdentifier_of_suffix kinds hlast)

theorem stops_of_delimiter (hspares : operators.SparesDelimiters) {c : Char}
    (hc : Parser.isDelimiter c = true) (hopen : c ≠ '(') (kinds : List Token.Kind) :
    Stops operators kinds (.character c) where
  not_operator := hspares c hc
  not_called _ hcharacter := hopen (Token.Kind.character.inj hcharacter)

theorem endsBefore_delimiter (hspares : operators.SparesDelimiters) {c : Char}
    (hc : Parser.isDelimiter c = true) (hopen : c ≠ '(')
    (kinds following : List Token.Kind) :
    Category.EndsBefore operators kinds (.character c :: following) .expression := by
  intro next hnext
  injection hnext with hnext
  rw [← hnext]
  exact stops_of_delimiter hspares hc hopen kinds

theorem endsBefore_close (hspares : operators.SparesDelimiters)
    (h : following.head? = some (.character ')')) (kinds : List Token.Kind) :
    Category.EndsBefore operators kinds following .expression := by
  rcases List.head?_eq_some_iff.mp h with ⟨rest, hcons⟩
  rw [hcons]
  exact endsBefore_delimiter hspares rfl (by decide) kinds rest

theorem endsBefore_of_append
    (h : Category.EndsBefore operators (kinds ++ others) following .expression) :
    Category.EndsBefore operators others following .operations :=
  fun next hnext => stops_of_append kinds (h next hnext)

theorem uncalled_before_operator (hspares : operators.SparesDelimiters)
    {next : Token.Kind} (hnext : operators.IsOperator next)
    (kinds following : List Token.Kind) : Uncalled kinds (next :: following) := by
  intro _ hopen
  injection hopen with hopen
  rw [hopen] at hnext
  exact hspares '(' rfl hnext

theorem uncalled_before_operations (hspares : operators.SparesDelimiters)
    {values : List Operation} (hothers : Derives operators others (.operations values))
    (h : Category.EndsBefore operators (kinds ++ others) following .expression) :
    Uncalled kinds (others ++ following) := by
  rcases derives_begins hothers with hnil | ⟨first, tail, hcons, hfirst⟩
  · rw [hnil, List.append_nil] at h
    rw [hnil, List.nil_append]
    intro hlast hopen
    exact (h _ hopen).not_called hlast rfl
  · rw [hcons]
    exact uncalled_before_operator hspares hfirst kinds _

end

/-!
# Phrases in one place
-/

def Unique (operators : Operators) (kinds : List Token.Kind) (category : Category) :
    Prop :=
  forall {other following following' : List Token.Kind},
    category.Derived operators other ->
    kinds ++ following = other ++ following' ->
    category.EndsBefore operators kinds following ->
    category.EndsBefore operators other following' -> kinds = other

section

variable {operators : Operators}

theorem number_unique (value : Binary64) :
    Unique operators [.number value] .primary := by
  intro other following following' hother happend _ _
  rcases hother with ⟨value', hother⟩
  cases hother with
  | number value' =>
      injection happend with hhead _
      rw [hhead]
  | var _ | emptyCall _ | call _ _ | grouping _ =>
      injection happend with hhead _
      cases hhead

theorem var_unique (name : String) : Unique operators [.identifier name] .primary := by
  intro other following following' hother happend hends _
  have hcalled : following.head? ≠ some (.character '(') := hends ⟨name, rfl⟩
  rcases hother with ⟨value, hother⟩
  cases hother with
  | var name' =>
      injection happend with hhead _
      rw [hhead]
  | emptyCall _ | call _ _ =>
      injection happend with _ htail
      exact absurd (congrArg List.head? htail) hcalled
  | number _ | grouping _ =>
      injection happend with hhead _
      cases hhead

theorem beginsOperand_of_append {kinds following rest : List Token.Kind}
    {next : Token.Kind}
    (h : exists first tail, kinds = first :: tail ∧ BeginsOperand first)
    (happend : kinds ++ following = next :: rest) : BeginsOperand next := by
  rcases h with ⟨first, tail, hcons, hfirst⟩
  rw [hcons] at happend
  injection happend with hhead _
  rw [← hhead]
  exact hfirst

theorem emptyCall_unique (name : String) :
    Unique operators [.identifier name, .character '(', .character ')'] .primary := by
  intro other following following' hother happend _ hends'
  rcases hother with ⟨value, hother⟩
  cases hother with
  | var name' =>
      injection happend with _ htail
      exact absurd (congrArg List.head? htail).symm (hends' ⟨name', rfl⟩)
  | emptyCall name' =>
      injection happend with hhead _
      rw [hhead]
  | call name' hinside =>
      simp only [List.cons_append, List.append_assoc, List.cons.injEq] at happend
      cases beginsOperand_of_append (derives_begins hinside) happend.right.right.symm
  | number _ | grouping _ =>
      injection happend with hhead _
      cases hhead

theorem call_unique (name : String) {inside : List Token.Kind} {values : List Expr}
    (hinside : Derives operators inside (.arguments values))
    (ih : Unique operators inside .arguments) :
    Unique operators (.identifier name :: .character '(' :: (inside ++ [.character ')']))
      .primary := by
  intro other following following' hother happend _ hends'
  rcases hother with ⟨value, hother⟩
  cases hother with
  | var name' =>
      injection happend with _ htail
      exact absurd (congrArg List.head? htail).symm (hends' ⟨name', rfl⟩)
  | emptyCall name' =>
      simp only [List.cons_append, List.append_assoc, List.cons.injEq] at happend
      cases beginsOperand_of_append (derives_begins hinside) happend.right.right
  | call name' hinside' =>
      simp only [List.cons_append, List.append_assoc, List.cons.injEq] at happend
      rcases happend with ⟨hhead, _, htail⟩
      rw [hhead, ih ⟨_, hinside'⟩ htail rfl rfl]
  | number _ | grouping _ =>
      injection happend with hhead _
      cases hhead

theorem grouping_unique (hspares : operators.SparesDelimiters)
    {inside : List Token.Kind} (ih : Unique operators inside .expression) :
    Unique operators (.character '(' :: (inside ++ [.character ')'])) .primary := by
  intro other following following' hother happend _ _
  rcases hother with ⟨value, hother⟩
  cases hother with
  | @grouping inside' _ hinside' =>
      simp only [List.cons_append, List.append_assoc, List.cons.injEq] at happend
      have hsame := ih ⟨_, hinside'⟩ happend.right
        (endsBefore_delimiter hspares rfl (by decide) inside following)
        (endsBefore_delimiter hspares rfl (by decide) inside' following')
      rw [hsame]
  | number _ | var _ | emptyCall _ | call _ _ =>
      injection happend with hhead _
      cases hhead

theorem noOperation_unique : Unique operators [] .operations := by
  intro other following following' hother happend hends _
  rcases hother with ⟨values, hother⟩
  cases hother with
  | noOperation => rfl
  | operation hop _ _ =>
      have hhead := congrArg List.head? happend
      exact absurd hop (hends _ hhead).not_operator

theorem operand_append_unique (hspares : operators.SparesDelimiters)
    {operand others operand' others' following following' : List Token.Kind}
    {values values' : List Operation} {left' : Expr}
    (hothers : Derives operators others (.operations values))
    (hoperand' : Derives operators operand' (.primary left'))
    (hothers' : Derives operators others' (.operations values'))
    (ihoperand : Unique operators operand .primary)
    (ihothers : Unique operators others .operations)
    (happend : operand ++ others ++ following = operand' ++ others' ++ following')
    (hends : Category.EndsBefore operators (operand ++ others) following .expression)
    (hends' : Category.EndsBefore operators (operand' ++ others') following' .expression) :
    operand ++ others = operand' ++ others' := by
  rw [List.append_assoc, List.append_assoc] at happend
  have hoperand := ihoperand ⟨left', hoperand'⟩ happend
    (uncalled_before_operations hspares hothers hends)
    (uncalled_before_operations hspares hothers' hends')
  rw [hoperand] at happend ⊢
  have htail := ihothers ⟨values', hothers'⟩ (List.append_cancel_left happend)
    (endsBefore_of_append hends) (endsBefore_of_append hends')
  rw [htail]

theorem operation_unique (hspares : operators.SparesDelimiters) {op : Char}
    {operand others : List Token.Kind} {values : List Operation}
    (hop : operators.IsOperator (.character op))
    (hothers : Derives operators others (.operations values))
    (ihoperand : Unique operators operand .primary)
    (ihothers : Unique operators others .operations) :
    Unique operators (.character op :: (operand ++ others)) .operations := by
  intro other following following' hother happend hends hends'
  rcases hother with ⟨values', hother⟩
  cases hother with
  | noOperation =>
      have hhead := congrArg List.head? happend
      exact absurd hop (hends' _ hhead.symm).not_operator
  | operation _ hoperand' hothers' =>
      injection happend with hhead htail
      rw [hhead]
      congr 1
      exact operand_append_unique hspares hothers hoperand' hothers' ihoperand ihothers
        htail (fun next hnext => stops_of_append [_] (hends next hnext))
        (fun next hnext => stops_of_append [_] (hends' next hnext))

theorem expression_unique (hspares : operators.SparesDelimiters)
    {operand others : List Token.Kind} {values : List Operation}
    (hothers : Derives operators others (.operations values))
    (ihoperand : Unique operators operand .primary)
    (ihothers : Unique operators others .operations) :
    Unique operators (operand ++ others) .expression := by
  intro other following following' hother happend hends hends'
  rcases hother with ⟨value', hother⟩
  cases hother with
  | expression hoperand' hothers' =>
      exact operand_append_unique hspares hothers hoperand' hothers' ihoperand ihothers
        happend hends hends'

theorem lastArgument_unique (hspares : operators.SparesDelimiters)
    {kinds : List Token.Kind} (ih : Unique operators kinds .expression) :
    Unique operators kinds .arguments := by
  intro other following following' hother happend hends hends'
  have hfirst := endsBefore_close hspares hends kinds
  rcases hother with ⟨values', hother⟩
  cases hother with
  | lastArgument hderives =>
      exact ih ⟨_, hderives⟩ happend hfirst (endsBefore_close hspares hends' other)
  | @nextArgument first others _ _ hderives _ =>
      rw [List.append_assoc, List.cons_append] at happend
      have hsame := ih ⟨_, hderives⟩ happend hfirst
        (endsBefore_delimiter hspares rfl (by decide) first _)
      rw [hsame] at happend
      rw [List.append_cancel_left happend] at hends
      cases hends

theorem nextArgument_unique (hspares : operators.SparesDelimiters)
    {kinds others : List Token.Kind} (ihfirst : Unique operators kinds .expression)
    (ihothers : Unique operators others .arguments) :
    Unique operators (kinds ++ .character ',' :: others) .arguments := by
  intro other following following' hother happend hends hends'
  rw [List.append_assoc, List.cons_append] at happend
  have hfirst := endsBefore_delimiter hspares (c := ',') rfl (by decide) kinds
    (others ++ following)
  rcases hother with ⟨values', hother⟩
  cases hother with
  | lastArgument hderives =>
      have hsame := ihfirst ⟨_, hderives⟩ happend hfirst
        (endsBefore_close hspares hends' other)
      rw [hsame] at happend
      rw [← List.append_cancel_left happend] at hends'
      cases hends'
  | @nextArgument first others' _ _ hderives hothers =>
      rw [List.append_assoc, List.cons_append] at happend
      have hsame := ihfirst ⟨_, hderives⟩ happend hfirst
        (endsBefore_delimiter hspares rfl (by decide) first _)
      rw [hsame] at happend ⊢
      have htail := (List.cons.inj (List.append_cancel_left happend)).right
      rw [ihothers ⟨_, hothers⟩ htail hends hends']

theorem noParameter_unique : Unique operators [] .parameters := by
  intro other following following' hother happend hends _
  rcases hother with ⟨names, hother⟩
  cases hother with
  | noParameter => rfl
  | parameter name _ => exact absurd (congrArg List.head? happend) (hends name)

theorem parameter_unique (name : String) {others : List Token.Kind}
    (ih : Unique operators others .parameters) :
    Unique operators (.identifier name :: others) .parameters := by
  intro other following following' hother happend hends hends'
  rcases hother with ⟨names, hother⟩
  cases hother with
  | noParameter => exact absurd (congrArg List.head? happend).symm (hends' name)
  | parameter name' hothers =>
      injection happend with hhead htail
      rw [hhead, ih ⟨_, hothers⟩ htail hends hends']

theorem prototype_unique (name : String) {inside : List Token.Kind}
    (ih : Unique operators inside .parameters) :
    Unique operators
      (.identifier name :: .character '(' :: (inside ++ [.character ')'])) .prototype := by
  intro other following following' hother happend _ _
  rcases hother with ⟨value', hother⟩
  cases hother with
  | prototype name' hinside =>
      simp only [List.cons_append, List.append_assoc, List.cons.injEq] at happend
      rcases happend with ⟨hhead, _, htail⟩
      rw [hhead, ih ⟨_, hinside⟩ htail nofun nofun]

theorem definition_unique {header body : List Token.Kind}
    (ihheader : Unique operators header .prototype)
    (ihbody : Unique operators body .expression) :
    Unique operators (.define :: (header ++ body)) .unit := by
  intro other following following' hother happend hends hends'
  rcases hother with ⟨value', hother⟩
  cases hother with
  | @definition header' body' _ _ hheader' hbody' =>
      simp only [List.cons_append, List.append_assoc, List.cons.injEq, true_and] at happend
      have hheader := ihheader ⟨_, hheader'⟩ happend trivial trivial
      rw [hheader] at happend ⊢
      have hbody := ihbody ⟨_, hbody'⟩ (List.append_cancel_left happend)
        (fun next hnext => stops_of_append (_ :: header) (hends next hnext))
        (fun next hnext => stops_of_append (_ :: header') (hends' next hnext))
      rw [hbody]
  | external _ =>
      injection happend with hhead _
      cases hhead
  | bare hkinds => cases beginsOperand_of_append (derives_begins hkinds) happend.symm

theorem external_unique {header : List Token.Kind}
    (ih : Unique operators header .prototype) :
    Unique operators (.external :: header) .unit := by
  intro other following following' hother happend _ _
  rcases hother with ⟨value', hother⟩
  cases hother with
  | definition _ _ =>
      injection happend with hhead _
      cases hhead
  | external hheader =>
      injection happend with _ htail
      rw [ih ⟨_, hheader⟩ htail trivial trivial]
  | bare hkinds => cases beginsOperand_of_append (derives_begins hkinds) happend.symm

theorem bare_unique {kinds : List Token.Kind} {value : Expr}
    (hkinds : Derives operators kinds (.expression value))
    (ih : Unique operators kinds .expression) : Unique operators kinds .unit := by
  intro other following following' hother happend hends hends'
  rcases hother with ⟨value', hother⟩
  cases hother with
  | definition _ _ | external _ =>
      cases beginsOperand_of_append (derives_begins hkinds) happend
  | bare hkinds' => exact ih ⟨_, hkinds'⟩ happend hends hends'

end

/-!
# Every derivation
-/

/-- Phrases of one category in one place have the same kinds. -/
theorem derives_unique {operators : Operators} (hspares : operators.SparesDelimiters)
    {kinds : List Token.Kind} {phrase : Phrase} (h : Derives operators kinds phrase) :
    Unique operators kinds phrase.category := by
  induction h with
  | number value => exact number_unique value
  | var name => exact var_unique name
  | emptyCall name => exact emptyCall_unique name
  | call name hinside ih => exact call_unique name hinside ih
  | grouping _ ih => exact grouping_unique hspares ih
  | noOperation => exact noOperation_unique
  | operation hop _ hothers ihoperand ihothers =>
      exact operation_unique hspares hop hothers ihoperand ihothers
  | expression _ hothers ihoperand ihothers =>
      exact expression_unique hspares hothers ihoperand ihothers
  | lastArgument _ ih => exact lastArgument_unique hspares ih
  | nextArgument _ _ ihfirst ihothers =>
      exact nextArgument_unique hspares ihfirst ihothers
  | noParameter => exact noParameter_unique
  | parameter name _ ih => exact parameter_unique name ih
  | prototype name _ ih => exact prototype_unique name ih
  | definition _ _ ihheader ihbody => exact definition_unique ihheader ihbody
  | external _ ih => exact external_unique ih
  | bare hkinds ih => exact bare_unique hkinds ih

end Kaleidoscope
