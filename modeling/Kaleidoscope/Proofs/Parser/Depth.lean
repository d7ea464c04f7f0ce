import Kaleidoscope.Parser.TopLevel
import Kaleidoscope.Proofs.Parser.Remaining

/-!
# Depths

A reply that is not too deep is the reply at every greater depth, so the outcome
of a parser does not depend on the depth it was found at.  A construct that is
read at some depth has used tokens.
-/

namespace Kaleidoscope
namespace Parser

/-!
# Replies at two depths
-/

/-- The second reply is the first one unless that was too deep. -/
def Reply.KeptBy (reply deeper : Reply α) : Prop :=
  reply = .tooDeep ∨ deeper = reply

theorem keptBy_refl (reply : Reply α) : reply.KeptBy reply :=
  Or.inr rfl

theorem keptBy_trans {x y z : Reply α} (hxy : x.KeptBy y) (hyz : y.KeptBy z) :
    x.KeptBy z := by
  cases hxy with
  | inl hx => exact Or.inl hx
  | inr hy =>
      rw [hy] at hyz
      exact hyz

theorem keptBy_andThen {reply deeper : Reply α} {next further : α -> Parser -> Reply β}
    (h : reply.KeptBy deeper)
    (hnext : forall value rest, (next value rest).KeptBy (further value rest)) :
    (reply.andThen next).KeptBy (deeper.andThen further) := by
  cases h with
  | inl hdeep =>
      rw [hdeep]
      exact Or.inl rfl
  | inr hsame =>
      rw [hsame]
      cases reply with
      | parsed value rest => exact hnext value rest
      | failed error rest => exact Or.inr rfl
      | tooDeep => exact Or.inl rfl

theorem keptBy_map {reply deeper : Reply α} (f : α -> β) (h : reply.KeptBy deeper) :
    (reply.map f).KeptBy (deeper.map f) :=
  keptBy_andThen h fun _ _ => keptBy_refl _

theorem parsed_ne_tooDeep (value : α) (rest : Parser) :
    Reply.parsed value rest ≠ .tooDeep := by
  intro h
  cases h

theorem fail_ne_tooDeep (parser : Parser) (kind : SyntaxError.Kind) :
    (parser.fail kind : Reply α) ≠ .tooDeep := by
  intro h
  cases h

theorem andThen_ne_tooDeep {reply : Reply α} {next : α -> Parser -> Reply β}
    (h : reply ≠ .tooDeep)
    (hnext : forall value rest, reply = .parsed value rest ->
      next value rest ≠ .tooDeep) :
    reply.andThen next ≠ .tooDeep := by
  cases reply with
  | parsed value rest => exact hnext value rest rfl
  | failed error rest =>
      intro hdeep
      cases hdeep
  | tooDeep => exact absurd rfl h

theorem map_ne_tooDeep {reply : Reply α} {f : α -> β} (h : reply ≠ .tooDeep) :
    reply.map f ≠ .tooDeep := by
  apply andThen_ne_tooDeep h
  intro value rest _
  exact parsed_ne_tooDeep _ _

theorem expect_ne_tooDeep (parser : Parser) (c : Char) (kind : SyntaxError.Kind) :
    parser.expect c kind ≠ .tooDeep := by
  unfold expect
  split
  · exact parsed_ne_tooDeep _ _
  · exact fail_ne_tooDeep _ _

theorem andThen_eq_parsed {reply : Reply α} {next : α -> Parser -> Reply β}
    {value : β} {rest : Parser} (h : reply.andThen next = .parsed value rest) :
    exists first middle, reply = .parsed first middle ∧
      next first middle = .parsed value rest := by
  cases reply with
  | parsed first middle => exact ⟨first, middle, rfl, h⟩
  | failed error middle => cases h
  | tooDeep => cases h

theorem map_eq_parsed {reply : Reply α} {f : α -> β} {value : β} {rest : Parser}
    (h : reply.map f = .parsed value rest) :
    exists first, reply = .parsed first rest ∧ f first = value := by
  rcases andThen_eq_parsed h with ⟨first, middle, hreply, hfirst⟩
  injection hfirst with hvalue hrest
  exact ⟨first, by rw [hreply, hrest], hvalue⟩

theorem expect_eq_parsed {parser rest : Parser} {c : Char} {kind : SyntaxError.Kind}
    {token : Token} (h : parser.expect c kind = .parsed token rest) :
    parser.current.kind = .character c ∧ rest = parser.advance := by
  unfold expect at h
  by_cases hc : parser.atCharacter c = true
  · rw [if_pos hc] at h
    injection h with _ hrest
    exact ⟨(Token.isCharacter_iff c _).mp hc, hrest.symm⟩
  · rw [if_neg hc] at h
    cases h

/-!
# One more level of depth
-/

structure KeptAt (depth : Nat) : Prop where
  expression (parser : Parser) :
    (expressionWithin depth parser).KeptBy (expressionWithin (depth + 1) parser)
  primary (parser : Parser) :
    (primaryWithin depth parser).KeptBy (primaryWithin (depth + 1) parser)
  grouping (parser : Parser) :
    (groupingWithin depth parser).KeptBy (groupingWithin (depth + 1) parser)
  reference (name : String) (parser : Parser) :
    (referenceWithin name depth parser).KeptBy
      (referenceWithin name (depth + 1) parser)
  arguments (parser : Parser) :
    (argumentsWithin depth parser).KeptBy (argumentsWithin (depth + 1) parser)
  operations (least : Int32) (left : Expr) (parser : Parser) :
    (operationsWithin least left depth parser).KeptBy
      (operationsWithin least left (depth + 1) parser)

namespace KeptAt

variable {depth : Nat} (ih : KeptAt depth)
include ih

theorem expression_succ (parser : Parser) :
    (expressionWithin (depth + 1) parser).KeptBy (expressionWithin (depth + 2) parser) := by
  rw [expressionWithin, expressionWithin]
  exact keptBy_andThen (ih.primary parser)
    fun left rest => ih.operations 0 left rest

theorem primary_succ (parser : Parser) :
    (primaryWithin (depth + 1) parser).KeptBy (primaryWithin (depth + 2) parser) := by
  rw [primaryWithin, primaryWithin]
  split
  · exact ih.reference _ parser
  · exact keptBy_refl _
  · exact ih.grouping parser
  · exact keptBy_refl _

theorem grouping_succ (parser : Parser) :
    (groupingWithin (depth + 1) parser).KeptBy (groupingWithin (depth + 2) parser) := by
  rw [groupingWithin, groupingWithin]
  exact keptBy_andThen (ih.expression parser.advance) fun _ _ => keptBy_refl _

theorem reference_succ (name : String) (parser : Parser) :
    (referenceWithin name (depth + 1) parser).KeptBy
      (referenceWithin name (depth + 2) parser) := by
  rw [referenceWithin, referenceWithin]
  dsimp only
  split
  · split
    · exact keptBy_refl _
    · exact keptBy_andThen (ih.arguments parser.advance.advance)
        fun _ _ => keptBy_refl _
  · exact keptBy_refl _

theorem arguments_succ (parser : Parser) :
    (argumentsWithin (depth + 1) parser).KeptBy (argumentsWithin (depth + 2) parser) := by
  rw [argumentsWithin, argumentsWithin]
  apply keptBy_andThen (ih.expression parser)
  intro argument rest
  split
  · exact keptBy_refl _
  · exact keptBy_andThen (keptBy_refl _)
      fun _ rest => keptBy_map _ (ih.arguments rest)

theorem operations_succ (least : Int32) (left : Expr) (parser : Parser) :
    (operationsWithin least left (depth + 1) parser).KeptBy
      (operationsWithin least left (depth + 2) parser) := by
  rw [operationsWithin, operationsWithin]
  split
  · exact keptBy_refl _
  · split
    · apply keptBy_andThen (ih.primary parser.advance)
      intro right rest
      split
      · exact keptBy_andThen (ih.operations _ right rest)
          fun right rest => ih.operations least _ rest
      · exact ih.operations least _ rest
    · exact keptBy_refl _

end KeptAt

theorem keptAt (depth : Nat) : KeptAt depth := by
  induction depth with
  | zero => constructor <;> intros <;> exact Or.inl rfl
  | succ depth ih =>
      constructor
      · exact ih.expression_succ
      · exact ih.primary_succ
      · exact ih.grouping_succ
      · exact ih.reference_succ
      · exact ih.arguments_succ
      · exact ih.operations_succ

theorem parametersWithin_keptBy (depth : Nat) (parser : Parser) :
    (parametersWithin depth parser).KeptBy (parametersWithin (depth + 1) parser) := by
  induction depth generalizing parser with
  | zero => exact Or.inl rfl
  | succ depth ih =>
      rw [parametersWithin, parametersWithin]
      split
      · exact keptBy_map _ (ih parser.advance)
      · exact keptBy_refl _

theorem prototypeWithin_keptBy (depth : Nat) (parser : Parser) :
    (prototypeWithin depth parser).KeptBy (prototypeWithin (depth + 1) parser) := by
  unfold prototypeWithin
  split
  · dsimp only
    split
    · exact keptBy_andThen (parametersWithin_keptBy depth _)
        fun _ _ => keptBy_refl _
    · exact keptBy_refl _
  · exact keptBy_refl _

theorem definitionWithin_keptBy (depth : Nat) (parser : Parser) :
    (definitionWithin depth parser).KeptBy (definitionWithin (depth + 1) parser) :=
  keptBy_andThen (prototypeWithin_keptBy depth parser.advance)
    fun _ rest => keptBy_map _ ((keptAt depth).expression rest)

theorem bareExpressionWithin_keptBy (depth : Nat) (parser : Parser) :
    (bareExpressionWithin depth parser).KeptBy
      (bareExpressionWithin (depth + 1) parser) :=
  keptBy_map _ ((keptAt depth).expression parser)

theorem topLevelWithin_keptBy (depth : Nat) (parser : Parser) :
    (topLevelWithin depth parser).KeptBy (topLevelWithin (depth + 1) parser) := by
  unfold topLevelWithin
  split
  · exact keptBy_map _ (definitionWithin_keptBy depth parser)
  · exact keptBy_map _ (prototypeWithin_keptBy depth parser.advance)
  · exact keptBy_map _ (bareExpressionWithin_keptBy depth parser)

/-!
# Progress

A construct that is read uses tokens.  Operations may use none, and a reference
is entered with its name as the lookahead.
-/

structure Progress (depth : Nat) : Prop where
  expression {parser rest : Parser} {value : Expr} :
    expressionWithin depth parser = .parsed value rest -> rest.left < parser.left
  primary {parser rest : Parser} {value : Expr} :
    primaryWithin depth parser = .parsed value rest -> rest.left < parser.left
  grouping {parser rest : Parser} {value : Expr} :
    groupingWithin depth parser = .parsed value rest ->
      rest.left < parser.advance.left
  reference {name : String} {parser rest : Parser} {value : Expr} :
    referenceWithin name depth parser = .parsed value rest ->
      rest.left ≤ parser.advance.left
  arguments {parser rest : Parser} {values : List Expr} :
    argumentsWithin depth parser = .parsed values rest -> rest.left < parser.left
  operations {least : Int32} {left : Expr} {parser rest : Parser} {value : Expr} :
    operationsWithin least left depth parser = .parsed value rest ->
      rest.left ≤ parser.left

theorem advance_left_lt_of_kind {parser : Parser} {kind : Token.Kind}
    (h : parser.current.kind = kind) (hkind : kind ≠ .endOfInput) :
    parser.advance.left < parser.left :=
  advance_left_lt (by rw [h]; exact hkind)

namespace Progress

variable {depth : Nat} (ih : Progress depth) {parser rest : Parser} {value : Expr}
include ih

theorem expression_succ
    (h : expressionWithin (depth + 1) parser = .parsed value rest) :
    rest.left < parser.left := by
  unfold expressionWithin at h
  rcases andThen_eq_parsed h with ⟨left, middle, hleft, hrest⟩
  exact Nat.lt_of_le_of_lt (ih.operations hrest) (ih.primary hleft)

theorem primary_succ (h : primaryWithin (depth + 1) parser = .parsed value rest) :
    rest.left < parser.left := by
  unfold primaryWithin at h
  split at h
  · next hkind =>
      have hadvance := advance_left_lt_of_kind hkind (by simp)
      exact Nat.lt_of_le_of_lt (ih.reference h) hadvance
  · next hkind =>
      injection h with _ hrest
      rw [← hrest]
      exact advance_left_lt_of_kind hkind (by simp)
  · exact Nat.lt_of_lt_of_le (ih.grouping h) (advance_left_le parser)
  · cases h

theorem grouping_succ (h : groupingWithin (depth + 1) parser = .parsed value rest) :
    rest.left < parser.advance.left := by
  unfold groupingWithin at h
  rcases andThen_eq_parsed h with ⟨content, middle, hcontent, hclose⟩
  rcases map_eq_parsed hclose with ⟨token, hexpect, _⟩
  rcases expect_eq_parsed hexpect with ⟨_, hrest⟩
  rw [hrest]
  exact Nat.lt_of_le_of_lt (advance_left_le middle) (ih.expression hcontent)

theorem reference_succ {name : String}
    (h : referenceWithin name (depth + 1) parser = .parsed value rest) :
    rest.left ≤ parser.advance.left := by
  unfold referenceWithin at h
  dsimp only at h
  have hinside := advance_left_le parser.advance
  split at h
  · split at h
    · injection h with _ hrest
      rw [← hrest]
      exact Nat.le_trans (advance_left_le _) hinside
    · rcases andThen_eq_parsed h with ⟨values, middle, hvalues, hclose⟩
      injection hclose with _ hrest
      have hargs := ih.arguments hvalues
      have hlast := advance_left_le middle
      rw [← hrest]
      omega
  · injection h with _ hrest
    exact Nat.le_of_eq (by rw [hrest])

theorem arguments_succ {values : List Expr}
    (h : argumentsWithin (depth + 1) parser = .parsed values rest) :
    rest.left < parser.left := by
  unfold argumentsWithin at h
  rcases andThen_eq_parsed h with ⟨argument, middle, hargument, htail⟩
  have hfirst := ih.expression hargument
  split at htail
  · injection htail with _ hrest
    rw [← hrest]
    exact hfirst
  · rcases andThen_eq_parsed htail with ⟨token, after, hexpect, hothers⟩
    rcases expect_eq_parsed hexpect with ⟨_, hafter⟩
    rcases map_eq_parsed hothers with ⟨others, hothers, _⟩
    have hrest := ih.arguments hothers
    have hcomma := advance_left_le middle
    rw [hafter] at hrest
    omega

theorem operations_succ {least : Int32} {left : Expr}
    (h : operationsWithin least left (depth + 1) parser = .parsed value rest) :
    rest.left ≤ parser.left := by
  unfold operationsWithin at h
  have hadvance := advance_left_le parser
  split at h
  · injection h with _ hrest
    exact Nat.le_of_eq (by rw [hrest])
  · split at h
    · rcases andThen_eq_parsed h with ⟨right, middle, hright, htail⟩
      have hoperand := ih.primary hright
      split at htail
      · rcases andThen_eq_parsed htail with ⟨wider, after, hwider, hloop⟩
        have hinner := ih.operations hwider
        have houter := ih.operations hloop
        omega
      · have houter := ih.operations htail
        omega
    · injection h with _ hrest
      rw [← hrest]
      exact hadvance

end Progress

theorem progress (depth : Nat) : Progress depth := by
  induction depth with
  | zero => constructor <;> intros <;> contradiction
  | succ depth ih =>
      constructor
      · exact ih.expression_succ
      · exact ih.primary_succ
      · exact ih.grouping_succ
      · exact ih.reference_succ
      · exact ih.arguments_succ
      · exact ih.operations_succ

theorem parametersWithin_left {depth : Nat} {parser rest : Parser}
    {names : List String} (h : parametersWithin depth parser = .parsed names rest) :
    rest.left ≤ parser.left := by
  induction depth generalizing parser names with
  | zero => cases h
  | succ depth ih =>
      unfold parametersWithin at h
      split at h
      · rcases map_eq_parsed h with ⟨others, hothers, _⟩
        exact Nat.le_trans (ih hothers) (advance_left_le parser)
      · injection h with _ hrest
        exact Nat.le_of_eq (by rw [hrest])

theorem prototypeWithin_left {depth : Nat} {parser rest : Parser}
    {value : Prototype} (h : prototypeWithin depth parser = .parsed value rest) :
    rest.left ≤ parser.left := by
  unfold prototypeWithin at h
  have hname := advance_left_le parser
  have hopen := advance_left_le parser.advance
  split at h
  · dsimp only at h
    split at h
    · rcases andThen_eq_parsed h with ⟨names, middle, hnames, hclose⟩
      rcases map_eq_parsed hclose with ⟨token, hexpect, _⟩
      rcases expect_eq_parsed hexpect with ⟨_, hrest⟩
      have hparameters := parametersWithin_left hnames
      have hlast := advance_left_le middle
      rw [hrest]
      omega
    · cases h
  · cases h

theorem definitionWithin_left {depth : Nat} {parser rest : Parser}
    {value : Definition} (h : definitionWithin depth parser = .parsed value rest) :
    rest.left < parser.left := by
  unfold definitionWithin at h
  rcases andThen_eq_parsed h with ⟨prototype, middle, hprototype, hbody⟩
  rcases map_eq_parsed hbody with ⟨body, hbody, _⟩
  calc
    rest.left < middle.left := (progress depth).expression hbody
    _ ≤ parser.advance.left := prototypeWithin_left hprototype
    _ ≤ parser.left := advance_left_le parser

theorem topLevelWithin_left {depth : Nat} {parser rest : Parser}
    {unit : TopLevel} (h : topLevelWithin depth parser = .parsed unit rest) :
    rest.left < parser.left := by
  unfold topLevelWithin at h
  split at h
  · rcases map_eq_parsed h with ⟨content, hcontent, _⟩
    exact definitionWithin_left hcontent
  · next hkind =>
      rcases map_eq_parsed h with ⟨prototype, hprototype, _⟩
      have hkeyword := advance_left_lt_of_kind hkind (by simp)
      exact Nat.lt_of_le_of_lt (prototypeWithin_left hprototype) hkeyword
  · rcases map_eq_parsed h with ⟨content, hcontent, _⟩
    rcases map_eq_parsed hcontent with ⟨body, hbody, _⟩
    exact (progress depth).expression hbody

end Parser
end Kaleidoscope
