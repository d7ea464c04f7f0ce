import Kaleidoscope.Proofs.Binary64.Rounding
import Kaleidoscope.Proofs.Grammar.Derivation
import Kaleidoscope.Proofs.Scanner.Tokenization

/-!
# Trees that can be read

Not every tree is read from a text: names are identifiers, numbers are not
negative, and operators are those of the standard table.
-/

namespace Kaleidoscope

def IsName (name : String) : Prop :=
  Token.HasKind name.toList (.identifier name)

/-- A number that a numeral can have for its value. -/
def Binary64.Readable (x : Binary64) : Prop :=
  exists m, m ≤ infiniteMagnitude ∧ x = ofMagnitude m

mutual

def Expr.Readable : Expr -> Prop
  | .number value => value.Readable
  | .var name => IsName name
  | .binary op left right =>
      Operators.standard.IsOperator (.character op) ∧ left.Readable ∧ right.Readable
  | .call callee arguments => IsName callee ∧ Expr.AllReadable arguments

def Expr.AllReadable : List Expr -> Prop
  | [] => True
  | argument :: rest => argument.Readable ∧ Expr.AllReadable rest

end

structure Prototype.Readable (prototype : Prototype) : Prop where
  name : IsName prototype.name
  parameters {name : String} : name ∈ prototype.parameters -> IsName name

def TopLevel.Readable : TopLevel -> Prop
  | .definition content => content.prototype.Readable ∧ content.body.Readable
  | .external prototype => prototype.Readable
  | .expression content => content.prototype = .anonymous ∧ content.body.Readable

/-!
# Equal values

A readable tree has no NaN in it, so it is equal to itself.
-/

theorem Binary64.isNaN_of_readable {x : Binary64} (h : x.Readable) : x.isNaN = false := by
  rcases h with ⟨m, hle, hx⟩
  rw [hx]
  exact isNaN_ofMagnitude hle

mutual

theorem Expr.sameValue_self : (value : Expr) -> value.Readable ->
    value.sameValue value = true
  | .number value, h => Binary64.sameValue_self (Binary64.isNaN_of_readable h)
  | .var name, _ => beq_self_eq_true name
  | .binary op left right, h => by
      rcases h with ⟨_, hleft, hright⟩
      rw [Expr.sameValue, beq_self_eq_true, left.sameValue_self hleft,
        right.sameValue_self hright]
      rfl
  | .call callee arguments, h => by
      rw [Expr.sameValue, beq_self_eq_true, Expr.sameValues_self arguments h.right]
      rfl

theorem Expr.sameValues_self : (arguments : List Expr) -> Expr.AllReadable arguments ->
    Expr.sameValues arguments arguments = true
  | [], _ => rfl
  | argument :: rest, h => by
      rw [Expr.sameValues, argument.sameValue_self h.left,
        Expr.sameValues_self rest h.right]
      rfl

end

theorem Definition.sameValue_self (content : Definition) (h : content.body.Readable) :
    content.sameValue content = true := by
  rw [Definition.sameValue, beq_self_eq_true, content.body.sameValue_self h]
  rfl

namespace TopLevel

theorem sameValue_self (unit : TopLevel) (h : unit.Readable) :
    unit.sameValue unit = true := by
  cases unit with
  | definition content => exact content.sameValue_self h.right
  | external prototype => exact beq_self_eq_true prototype
  | expression content => exact content.sameValue_self h.right

theorem sameValues_self {units : List TopLevel}
    (h : forall unit, unit ∈ units -> unit.Readable) :
    sameValues units units = true := by
  induction units with
  | nil => rfl
  | cons unit units ih =>
      rw [sameValues, unit.sameValue_self (h unit List.mem_cons_self),
        ih fun other hother => h other (List.mem_cons_of_mem unit hother)]
      rfl

end TopLevel

/-!
# Kinds of lexemes
-/

theorem isName_of_isRead {name : String}
    (h : (Token.Kind.identifier name).IsRead) : IsName name := by
  rcases h with ⟨lexeme, hkind⟩
  cases hkind with
  | identifier hfirst hrest hdefine hexternal =>
      rw [IsName, String.toList_ofList]
      exact Token.HasKind.identifier hfirst hrest hdefine hexternal

theorem Numeral.value_readable (lexeme : List Char) : (value lexeme).Readable :=
  ⟨_, Binary64.nearestMagnitude_le _ _, rfl⟩

theorem readable_of_isRead {value : Binary64}
    (h : (Token.Kind.number value).IsRead) : value.Readable := by
  rcases h with ⟨lexeme, hkind⟩
  cases hkind with
  | number _ _ => exact Numeral.value_readable lexeme

def AllRead (kinds : List Token.Kind) : Prop :=
  forall kind, kind ∈ kinds -> kind.IsRead

theorem allRead_cons {kind : Token.Kind} {kinds : List Token.Kind}
    (h : AllRead (kind :: kinds)) : kind.IsRead ∧ AllRead kinds :=
  ⟨h kind List.mem_cons_self, fun other hother => h other (List.mem_cons_of_mem _ hother)⟩

theorem allRead_append {kinds others : List Token.Kind}
    (h : AllRead (kinds ++ others)) : AllRead kinds ∧ AllRead others :=
  ⟨fun kind hkind => h kind (List.mem_append_left _ hkind),
    fun kind hkind => h kind (List.mem_append_right _ hkind)⟩

end Kaleidoscope
