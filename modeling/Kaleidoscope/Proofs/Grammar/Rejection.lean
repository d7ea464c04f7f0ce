import Kaleidoscope.Proofs.Grammar.Failure

/-!
# Rejection

Where a phrase fails, the kind that was met is not accepted: no phrase of the
category is there, however the kinds go on.  Since phrases of one place are the
same, what the failed phrase has already derived is a part of every other one.
-/

namespace Kaleidoscope

def Category.Begins (operators : Operators) (kinds : List Token.Kind) :
    Category -> Prop
  | .primary | .expression | .arguments =>
      kinds = [] ∨ exists first rest, kinds = first :: rest ∧ BeginsOperand first
  | .operations =>
      exists first rest, kinds = first :: rest ∧ operators.IsOperator first
  | _ => True

theorem fails_begins {operators : Operators} {category : Category}
    {used : List Token.Kind} {next : Token.Kind} {kind : SyntaxError.Kind}
    (h : Fails operators category used next kind) : category.Begins operators used := by
  induction h with
  | operand _ => exact Or.inl rfl
  | call name _ _ _ => exact Or.inr ⟨_, _, rfl, BeginsOperand.name name⟩
  | grouping _ _ => exact Or.inr ⟨_, _, rfl, BeginsOperand.opening⟩
  | close _ _ _ => exact Or.inr ⟨_, _, rfl, BeginsOperand.opening⟩
  | operation hop _ _ => exact ⟨_, _, rfl, hop⟩
  | laterOperation hop _ _ _ => exact ⟨_, _, rfl, hop⟩
  | left _ ih => exact ih
  | right hoperand _ _ =>
      rcases derives_begins hoperand with ⟨first, rest, hcons, hfirst⟩
      exact Or.inr ⟨first, _, by rw [hcons]; rfl, hfirst⟩
  | argument _ ih => exact ih
  | delimiter hargument _ _ _ => exact Or.inr (derives_begins hargument)
  | laterArgument hargument _ _ =>
      rcases derives_begins hargument with ⟨first, rest, hcons, hfirst⟩
      exact Or.inr ⟨first, _, by rw [hcons]; rfl, hfirst⟩
  | functionName _ | openPrototype _ _ | closePrototype _ _ _ _
  | definitionHeader _ _ | definitionBody _ _ _ | external _ _ | bare _ _ _ =>
      trivial

/-- No phrase of the category is in the place of these kinds. -/
def Stuck (operators : Operators) (kinds : List Token.Kind) (category : Category) :
    Prop :=
  forall {other following : List Token.Kind},
    category.Derived operators other -> other ++ following = kinds ->
    category.EndsBefore operators other following -> False

section

variable {operators : Operators} {used after : List Token.Kind} {next : Token.Kind}

theorem operand_stuck (h : ¬ BeginsOperand next) :
    Stuck operators (next :: after) .primary := by
  intro other following hother happend _
  rcases hother with ⟨value, hother⟩
  exact h (beginsOperand_of_append (derives_begins hother) happend)

/-- What begins no operand is not met in kinds that fail at one or after one. -/
theorem cons_ne_of_begins {first : Token.Kind} {following : List Token.Kind}
    (h : used = [] ∨ exists head rest, used = head :: rest ∧ BeginsOperand head)
    (hempty : used = [] -> next ≠ first) (hfirst : ¬ BeginsOperand first) :
    first :: following ≠ used ++ next :: after := by
  intro happend
  rcases h with hnil | hcons
  · rw [hnil, List.nil_append] at happend
    injection happend with hnext _
    exact hempty hnil hnext.symm
  · exact hfirst (beginsOperand_of_append hcons happend.symm)

theorem call_stuck (name : String) {kind : SyntaxError.Kind}
    (h : Fails operators .arguments used next kind)
    (hempty : used = [] -> next ≠ .character ')')
    (ih : Stuck operators (used ++ next :: after) .arguments) :
    Stuck operators (.identifier name :: .character '(' :: used ++ next :: after)
      .primary := by
  intro other following hother happend hends
  rcases hother with ⟨value, hother⟩
  cases hother with
  | var name' =>
      injection happend with _ htail
      exact hends ⟨name', rfl⟩ (congrArg List.head? htail)
  | emptyCall name' =>
      simp only [List.cons_append, List.nil_append, List.cons.injEq] at happend
      exact cons_ne_of_begins (fails_begins h) hempty nofun happend.right.right
  | call name' hinside =>
      simp only [List.cons_append, List.append_assoc, List.cons.injEq] at happend
      exact ih ⟨_, hinside⟩ happend.right.right rfl
  | number _ | grouping _ =>
      injection happend with hhead _
      cases hhead

theorem grouping_stuck (hspares : operators.SparesDelimiters)
    {kinds : List Token.Kind} (ih : Stuck operators kinds .expression) :
    Stuck operators (.character '(' :: kinds) .primary := by
  intro other following hother happend _
  rcases hother with ⟨value, hother⟩
  cases hother with
  | @grouping inside _ hinside =>
      simp only [List.cons_append, List.append_assoc, List.cons.injEq] at happend
      exact ih ⟨_, hinside⟩ happend.right
        (endsBefore_delimiter hspares rfl (by decide) inside _)
  | number _ | var _ | emptyCall _ | call _ _ =>
      injection happend with hhead _
      cases hhead

theorem stopped_of_stops {kinds : List Token.Kind} (h : Stops operators kinds next)
    (after : List Token.Kind) :
    Category.EndsBefore operators kinds (next :: after) .expression := by
  intro kind hkind
  injection hkind with hkind
  rw [← hkind]
  exact h

theorem close_stuck (hspares : operators.SparesDelimiters)
    {inside : List Token.Kind} {value : Expr}
    (hinside : Derives operators inside (.expression value))
    (hstops : Stops operators inside next) (hnext : next ≠ .character ')') :
    Stuck operators (.character '(' :: inside ++ next :: after) .primary := by
  intro other following hother happend _
  rcases hother with ⟨value', hother⟩
  cases hother with
  | @grouping inside' _ hinside' =>
      simp only [List.cons_append, List.append_assoc, List.cons.injEq] at happend
      have hsame := derives_unique hspares hinside ⟨_, hinside'⟩ happend.right.symm
        (stopped_of_stops hstops after)
        (endsBefore_delimiter hspares rfl (by decide) inside' _)
      rw [hsame] at happend
      exact hnext (List.cons.inj (List.append_cancel_left happend.right)).left.symm
  | number _ | var _ | emptyCall _ | call _ _ =>
      injection happend with hhead _
      cases hhead

/-!
Operations that are stuck after an operand make the expression stuck, and an
operand that is stuck does so alone.
-/

theorem operand_append_stuck (hspares : operators.SparesDelimiters)
    {kinds operand others following : List Token.Kind} {left : Expr}
    {values : List Operation} (ih : Stuck operators kinds .primary)
    (hoperand : Derives operators operand (.primary left))
    (hothers : Derives operators others (.operations values))
    (happend : operand ++ others ++ following = kinds)
    (hends : Category.EndsBefore operators (operand ++ others) following .expression) :
    False := by
  rw [List.append_assoc] at happend
  exact ih ⟨_, hoperand⟩ happend (uncalled_before_operations hspares hothers hends)

theorem operations_append_stuck (hspares : operators.SparesDelimiters)
    {read operand others following : List Token.Kind} {left left' : Expr}
    {values : List Operation} {kind : SyntaxError.Kind}
    (hread : Derives operators read (.primary left))
    (h : Fails operators .operations used next kind)
    (ih : Stuck operators (used ++ next :: after) .operations)
    (hoperand : Derives operators operand (.primary left'))
    (hothers : Derives operators others (.operations values))
    (happend : operand ++ others ++ following = read ++ used ++ next :: after)
    (hends : Category.EndsBefore operators (operand ++ others) following .expression) :
    False := by
  rw [List.append_assoc, List.append_assoc] at happend
  rcases fails_begins h with ⟨first, rest, hcons, hfirst⟩
  have huncalled : Uncalled read (used ++ next :: after) := by
    rw [hcons]
    exact uncalled_before_operator hspares hfirst read _
  have hsame := derives_unique hspares hread ⟨_, hoperand⟩ happend.symm huncalled
    (uncalled_before_operations hspares hothers hends)
  rw [← hsame] at happend
  exact ih ⟨_, hothers⟩ (List.append_cancel_left happend) (endsBefore_of_append hends)

theorem operation_stuck (hspares : operators.SparesDelimiters) {op : Char}
    {kinds : List Token.Kind} (hop : operators.IsOperator (.character op))
    (ih : Stuck operators kinds .primary) :
    Stuck operators (.character op :: kinds) .operations := by
  intro other following hother happend hends
  rcases hother with ⟨values, hother⟩
  cases hother with
  | noOperation => exact (hends _ (congrArg List.head? happend)).not_operator hop
  | operation _ hoperand hothers =>
      injection happend with _ htail
      exact operand_append_stuck hspares ih hoperand hothers htail
        (fun next hnext => stops_of_append [_] (hends next hnext))

theorem laterOperation_stuck (hspares : operators.SparesDelimiters) {op : Char}
    {read : List Token.Kind} {right : Expr} {kind : SyntaxError.Kind}
    (hop : operators.IsOperator (.character op))
    (hread : Derives operators read (.primary right))
    (h : Fails operators .operations used next kind)
    (ih : Stuck operators (used ++ next :: after) .operations) :
    Stuck operators (.character op :: (read ++ used) ++ next :: after) .operations := by
  intro other following hother happend hends
  rcases hother with ⟨values, hother⟩
  cases hother with
  | noOperation => exact (hends _ (congrArg List.head? happend)).not_operator hop
  | operation _ hoperand hothers =>
      injection happend with _ htail
      exact operations_append_stuck hspares hread h ih hoperand hothers htail
        (fun next hnext => stops_of_append [_] (hends next hnext))

theorem left_stuck (hspares : operators.SparesDelimiters) {kinds : List Token.Kind}
    (ih : Stuck operators kinds .primary) : Stuck operators kinds .expression := by
  intro other following hother happend hends
  rcases hother with ⟨value, hother⟩
  cases hother with
  | expression hoperand hothers =>
      exact operand_append_stuck hspares ih hoperand hothers happend hends

theorem right_stuck (hspares : operators.SparesDelimiters)
    {read : List Token.Kind} {left : Expr} {kind : SyntaxError.Kind}
    (hread : Derives operators read (.primary left))
    (h : Fails operators .operations used next kind)
    (ih : Stuck operators (used ++ next :: after) .operations) :
    Stuck operators (read ++ used ++ next :: after) .expression := by
  intro other following hother happend hends
  rcases hother with ⟨value, hother⟩
  cases hother with
  | expression hoperand hothers =>
      exact operations_append_stuck hspares hread h ih hoperand hothers happend hends

theorem argument_stuck (hspares : operators.SparesDelimiters)
    {kinds : List Token.Kind} (ih : Stuck operators kinds .expression) :
    Stuck operators kinds .arguments := by
  intro other following hother happend hends
  rcases hother with ⟨values, hother⟩
  cases hother with
  | lastArgument hargument =>
      exact ih ⟨_, hargument⟩ happend (endsBefore_close hspares hends other)
  | @nextArgument first others _ _ hargument _ =>
      rw [List.append_assoc] at happend
      exact ih ⟨_, hargument⟩ happend
        (endsBefore_delimiter hspares rfl (by decide) first _)

theorem delimiter_stuck (hspares : operators.SparesDelimiters)
    {argument : List Token.Kind} {value : Expr}
    (hargument : Derives operators argument (.expression value))
    (hstops : Stops operators argument next) (hclose : next ≠ .character ')')
    (hcomma : next ≠ .character ',') :
    Stuck operators (argument ++ next :: after) .arguments := by
  intro other following hother happend hends
  rcases hother with ⟨values, hother⟩
  cases hother with
  | lastArgument hother =>
      have hsame := derives_unique hspares hargument ⟨_, hother⟩ happend.symm
        (stopped_of_stops hstops after) (endsBefore_close hspares hends other)
      rw [hsame] at happend
      rw [List.append_cancel_left happend] at hends
      injection hends with hnext
      exact hclose hnext
  | @nextArgument first others _ _ hfirst _ =>
      rw [List.append_assoc] at happend
      have hsame := derives_unique hspares hargument ⟨_, hfirst⟩ happend.symm
        (stopped_of_stops hstops after)
        (endsBefore_delimiter hspares rfl (by decide) first _)
      rw [hsame] at happend
      exact hcomma (List.cons.inj (List.append_cancel_left happend)).left.symm

theorem laterArgument_stuck (hspares : operators.SparesDelimiters)
    {argument kinds : List Token.Kind} {value : Expr}
    (hargument : Derives operators argument (.expression value))
    (ih : Stuck operators kinds .arguments) :
    Stuck operators (argument ++ .character ',' :: kinds) .arguments := by
  intro other following hother happend hends
  rcases hother with ⟨values, hother⟩
  have hcomma := endsBefore_delimiter hspares (c := ',') rfl (by decide) argument kinds
  cases hother with
  | lastArgument hother =>
      have hsame := derives_unique hspares hargument ⟨_, hother⟩ happend.symm hcomma
        (endsBefore_close hspares hends other)
      rw [hsame] at happend
      rw [List.append_cancel_left happend] at hends
      cases hends
  | @nextArgument first others _ _ hfirst hothers =>
      rw [List.append_assoc] at happend
      have hsame := derives_unique hspares hargument ⟨_, hfirst⟩ happend.symm hcomma
        (endsBefore_delimiter hspares rfl (by decide) first _)
      rw [hsame] at happend
      exact ih ⟨_, hothers⟩ (List.cons.inj (List.append_cancel_left happend)).right hends

/-!
# Prototypes and units that are stuck
-/

theorem functionName_stuck (h : forall name, next ≠ .identifier name) :
    Stuck operators (next :: after) .prototype := by
  intro other following hother happend _
  rcases hother with ⟨value, hother⟩
  cases hother with
  | prototype name _ =>
      injection happend with hhead _
      exact h name hhead.symm

theorem openPrototype_stuck (name : String) (h : next ≠ .character '(') :
    Stuck operators (.identifier name :: next :: after) .prototype := by
  intro other following hother happend _
  rcases hother with ⟨value, hother⟩
  cases hother with
  | prototype name' _ =>
      simp only [List.cons_append, List.append_assoc, List.cons.injEq] at happend
      exact h happend.right.left.symm

theorem closePrototype_stuck (hspares : operators.SparesDelimiters) (name : String)
    {inside : List Token.Kind} {names : List String}
    (hinside : Derives operators inside (.parameters names))
    (hname : forall name, next ≠ .identifier name) (hclose : next ≠ .character ')') :
    Stuck operators (.identifier name :: .character '(' :: inside ++ next :: after)
      .prototype := by
  intro other following hother happend _
  rcases hother with ⟨value, hother⟩
  cases hother with
  | @prototype name' inside' _ hinside' =>
      simp only [List.cons_append, List.append_assoc, List.cons.injEq] at happend
      have hnone : Category.EndsBefore operators inside (next :: after) .parameters :=
        fun name hhead => hname name (Option.some.inj hhead)
      have hsame := derives_unique hspares hinside ⟨_, hinside'⟩
        happend.right.right.symm hnone nofun
      rw [hsame] at happend
      have htail := List.append_cancel_left happend.right.right
      exact hclose (List.cons.inj htail).left.symm

theorem definitionHeader_stuck {kinds : List Token.Kind}
    (ih : Stuck operators kinds .prototype) :
    Stuck operators (.define :: kinds) .unit := by
  intro other following hother happend _
  rcases hother with ⟨value, hother⟩
  cases hother with
  | definition hheader _ =>
      simp only [List.cons_append, List.append_assoc, List.cons.injEq, true_and] at happend
      exact ih ⟨_, hheader⟩ happend trivial
  | external _ =>
      injection happend with hhead _
      cases hhead
  | bare hkinds => cases beginsOperand_of_append (derives_begins hkinds) happend

theorem definitionBody_stuck (hspares : operators.SparesDelimiters)
    {header kinds : List Token.Kind} {prototype : Prototype}
    (hheader : Derives operators header (.prototype prototype))
    (ih : Stuck operators kinds .expression) :
    Stuck operators (.define :: (header ++ kinds)) .unit := by
  intro other following hother happend hends
  rcases hother with ⟨value, hother⟩
  cases hother with
  | @definition header' body' _ _ hheader' hbody =>
      simp only [List.cons_append, List.append_assoc, List.cons.injEq, true_and] at happend
      have hsame := derives_unique hspares hheader ⟨_, hheader'⟩ happend.symm trivial trivial
      rw [hsame] at happend
      exact ih ⟨_, hbody⟩ (List.append_cancel_left happend)
        (fun next hnext => stops_of_append (_ :: header') (hends next hnext))
  | external _ =>
      injection happend with hhead _
      cases hhead
  | bare hkinds => cases beginsOperand_of_append (derives_begins hkinds) happend

theorem external_stuck {kinds : List Token.Kind}
    (ih : Stuck operators kinds .prototype) :
    Stuck operators (.external :: kinds) .unit := by
  intro other following hother happend _
  rcases hother with ⟨value, hother⟩
  cases hother with
  | definition _ _ =>
      injection happend with hhead _
      cases hhead
  | external hheader =>
      injection happend with _ htail
      exact ih ⟨_, hheader⟩ htail trivial
  | bare hkinds => cases beginsOperand_of_append (derives_begins hkinds) happend

theorem bare_stuck {kind : SyntaxError.Kind}
    (h : Fails operators .expression used next kind)
    (hempty : used = [] -> next ≠ .define ∧ next ≠ .external)
    (ih : Stuck operators (used ++ next :: after) .expression) :
    Stuck operators (used ++ next :: after) .unit := by
  intro other following hother happend hends
  rcases hother with ⟨value, hother⟩
  cases hother with
  | definition _ _ =>
      exact cons_ne_of_begins (fails_begins h) (fun hnil => (hempty hnil).left) nofun happend
  | external _ =>
      exact cons_ne_of_begins (fails_begins h) (fun hnil => (hempty hnil).right) nofun happend
  | bare hkinds => exact ih ⟨_, hkinds⟩ happend hends

end

/-- Where a phrase fails, none of its category is, whatever follows. -/
theorem fails_stuck {operators : Operators} (hspares : operators.SparesDelimiters)
    {category : Category} {used : List Token.Kind} {next : Token.Kind}
    {kind : SyntaxError.Kind} (h : Fails operators category used next kind)
    (after : List Token.Kind) :
    Stuck operators (used ++ next :: after) category := by
  induction h with
  | operand hnext => exact operand_stuck hnext
  | call name hfails hempty ih => exact call_stuck name hfails hempty ih
  | grouping _ ih => exact grouping_stuck hspares ih
  | close hinside hstops hnext => exact close_stuck hspares hinside hstops hnext
  | operation hop _ ih => exact operation_stuck hspares hop ih
  | laterOperation hop hoperand hfails ih =>
      exact laterOperation_stuck hspares hop hoperand hfails ih
  | left _ ih => exact left_stuck hspares ih
  | right hoperand hfails ih => exact right_stuck hspares hoperand hfails ih
  | argument _ ih => exact argument_stuck hspares ih
  | delimiter hargument hstops hclose hcomma =>
      exact delimiter_stuck hspares hargument hstops hclose hcomma
  | laterArgument hargument _ ih =>
      rw [List.append_assoc]
      exact laterArgument_stuck hspares hargument ih
  | functionName hname => exact functionName_stuck hname
  | openPrototype name hnext => exact openPrototype_stuck name hnext
  | closePrototype name hinside hname hclose =>
      exact closePrototype_stuck hspares name hinside hname hclose
  | definitionHeader _ ih => exact definitionHeader_stuck ih
  | definitionBody hheader _ ih =>
      rw [List.cons_append, List.append_assoc]
      exact definitionBody_stuck hspares hheader ih
  | external _ ih => exact external_stuck ih
  | bare hfails hempty ih => exact bare_stuck hfails hempty ih

end Kaleidoscope
