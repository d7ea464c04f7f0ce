import Kaleidoscope.Proofs.Grammar.Completeness
import Kaleidoscope.Proofs.Tree.Spelling

/-!
# Trees read back

An expression that is written out and read again is the same expression, in
whatever way the operators bind.  The parentheses of the source form hold the
tree together as long as no delimiter is an operator.
-/

namespace Kaleidoscope
namespace Parser

/-- A parser that has read the first token, with operators of its own. -/
def startWith (operators : Operators) (scanner : Scanner) : Parser :=
  { start scanner with operators }

theorem startWith_tokens (operators : Operators) (scanner : Scanner) :
    (startWith operators scanner).tokens = scanner.tokens :=
  start_tokens scanner

section

variable {operators : Operators} {value : Expr} {parser : Parser}

theorem expression_of_kinds (hspares : operators.SparesDelimiters)
    (hvalue : value.Writable operators) (hoperators : parser.operators = operators)
    {next : Token.Kind} {after : List Token.Kind}
    (hkinds : parser.tokens.map Token.kind = value.kinds ++ next :: after)
    (hstops : Stops operators value.kinds next) :
    exists rest, parser.expression = (.ok value, rest) ∧
      rest.tokens.map Token.kind = next :: after := by
  rcases reads_of_kinds hkinds with ⟨rest, hreads, hrest⟩
  rw [← current_of_kinds hrest, ← hoperators, ← reads_operators hreads] at hstops
  rcases stops_inv hstops with ⟨hstop, hnotCalled⟩
  have hderives := derives_expression (value.derives_kinds hvalue)
  have hcomplete := derives_complete hspares hderives parser rest hoperators hreads
  exact ⟨rest, hcomplete hstop hnotCalled, hrest⟩

/-- The source form of a tree is read as the tree, up to the end of the input. -/
theorem expression_sourceForm (hspares : operators.SparesDelimiters)
    (hvalue : value.Writable operators) (file : String) :
    exists rest,
      (startWith operators (.start (.ofString value.sourceForm) file)).expression =
        (.ok value, rest) ∧
      rest.current.kind = .endOfInput := by
  have hspells := value.prepends_sourceForm hvalue [] [] separates_nil (Spells.done rfl)
  rw [List.append_nil, List.append_nil] at hspells
  have hkinds : (tokenize value.sourceForm file).map Token.kind =
      value.kinds ++ [.endOfInput] := tokenize_of_spells hspells
  rw [tokenize, ← startWith_tokens operators] at hkinds
  have hstops : Stops operators value.kinds .endOfInput :=
    ⟨operators.not_isOperator_endOfInput, fun _ => nofun⟩
  rcases expression_of_kinds hspares hvalue rfl hkinds hstops with
    ⟨rest, hexpression, hrest⟩
  exact ⟨rest, hexpression, current_of_kinds hrest⟩

end

theorem expression_sourceForm_semicolon :
    exists rest,
      (startWith ((Operators.standard.install ';' 1).install '&' 2147483647)
        (.start (.ofString (Expr.binary '&' (.number .infinity)
          (.binary ';' (.var "a") (.call "f" [.var "b"]))).sourceForm) "")).expression =
        (.ok (.binary '&' (.number .infinity)
          (.binary ';' (.var "a") (.call "f" [.var "b"]))), rest) ∧
      rest.current.kind = .endOfInput := by
  have hname : forall name, name ∈ ["a", "b", "f"] -> IsName name := by
    intro name hmem
    simp only [List.mem_cons, List.not_mem_nil, or_false] at hmem
    rcases hmem with hsame | hsame | hsame
    all_goals
      rw [hsame]
      exact Token.HasKind.identifier rfl (List.forall_mem_nil _) (by decide) (by decide)
  have hkind {op : Char} (hblank : ¬ IsBlank op) (hother : op ≠ '#' ∧ op ≠ '.')
      (hpart : op.isAlpha = false ∧ op.isDigit = false) :
      Token.HasKind [op] (.character op) :=
    .character hblank hother.left hother.right hpart.left hpart.right
  refine expression_sourceForm ?_ ?_ ""
  · exact Operators.install_sparesDelimiters (Operators.install_sparesDelimiters
      Operators.standard_sparesDelimiters rfl 1) rfl _
  · refine ⟨⟨'&', 2147483647, rfl, by decide⟩,
      hkind (by simp [IsBlank]) (by decide) (by decide),
      ⟨by decide, by decide⟩, ⟨';', 1, rfl, by decide⟩,
      hkind (by simp [IsBlank]) (by decide) (by decide), ?_, ?_, ?_, trivial⟩
    · exact hname "a" (by decide)
    · exact hname "f" (by decide)
    · exact hname "b" (by decide)

end Parser
end Kaleidoscope
