import Kaleidoscope.Proofs.Parser.Simulation

/-!
# Trees of operations

An operand followed by operations stands for one tree: it is split at the
rightmost operator of lowest precedence, and both sides are trees in the same
way.  The loop over operations, which absorbs tighter operators into a right
operand, builds just this tree.
-/

namespace Kaleidoscope

abbrev Operation :=
  Char × Expr

namespace Operators

def level (operators : Operators) (operation : Operation) : Int :=
  (operators.precedence (.character operation.1)).toInt

/-- What stands before, at, and after the rightmost operator of lowest precedence. -/
def splitLowest (operators : Operators) (first : Operation) :
    List Operation -> List Operation × Operation × List Operation
  | [] => ([], first, [])
  | second :: rest =>
      let split := operators.splitLowest second rest
      if operators.level first < operators.level split.2.1 then
        ([], first, second :: rest)
      else
        (first :: split.1, split.2)

theorem splitLowest_append (operators : Operators) (first : Operation)
    (rest : List Operation) :
    (operators.splitLowest first rest).1 ++
      (operators.splitLowest first rest).2.1 ::
        (operators.splitLowest first rest).2.2 = first :: rest := by
  induction rest generalizing first with
  | nil => rfl
  | cons second rest ih =>
      rw [splitLowest]
      split
      · rfl
      · rw [List.cons_append, ih second]

theorem splitLowest_length (operators : Operators) (first : Operation)
    (rest : List Operation) :
    (operators.splitLowest first rest).1.length +
      (operators.splitLowest first rest).2.2.length = rest.length := by
  have hlength := congrArg List.length (operators.splitLowest_append first rest)
  rw [List.length_append, List.length_cons, List.length_cons] at hlength
  omega

/-- The tree of an operand and the operations after it. -/
def tree (operators : Operators) (left : Expr) : List Operation -> Expr
  | [] => left
  | first :: rest =>
      let split := operators.splitLowest first rest
      .binary split.2.1.1 (operators.tree left split.1)
        (operators.tree split.2.1.2 split.2.2)
termination_by operations => operations.length
decreasing_by
  · have hlength := operators.splitLowest_length first rest
    simp only [List.length_cons]
    omega
  · have hlength := operators.splitLowest_length first rest
    simp only [List.length_cons]
    omega

structure IsLowest (operators : Operators) (before : List Operation)
    (lowest : Operation) (after : List Operation) : Prop where
  before_le {operation : Operation} : operation ∈ before ->
    operators.level lowest ≤ operators.level operation
  after_lt {operation : Operation} : operation ∈ after ->
    operators.level lowest < operators.level operation

theorem splitLowest_isLowest (operators : Operators) (first : Operation)
    (rest : List Operation) :
    operators.IsLowest (operators.splitLowest first rest).1
      (operators.splitLowest first rest).2.1
      (operators.splitLowest first rest).2.2 := by
  induction rest generalizing first with
  | nil =>
      constructor
      · intro operation h
        cases h
      · intro operation h
        cases h
  | cons second rest ih =>
      have hrest := ih second
      have happend := operators.splitLowest_append second rest
      rw [splitLowest]
      split
      · next hlower =>
          constructor
          · intro operation h
            cases h
          · intro operation h
            rw [← happend] at h
            rcases List.mem_append.mp h with hbefore | hafter
            · exact Int.lt_of_lt_of_le hlower (hrest.before_le hbefore)
            · rcases List.mem_cons.mp hafter with hlowest | hafter
              · rw [hlowest]
                exact hlower
              · exact Int.lt_trans hlower (hrest.after_lt hafter)
      · next hlower =>
          constructor
          · intro operation h
            rcases List.mem_cons.mp h with hfirst | hbefore
            · rw [hfirst]
              exact Int.not_lt.mp hlower
            · exact hrest.before_le hbefore
          · intro operation h
            exact hrest.after_lt h

theorem isLowest_unique {operators : Operators}
    {before before' after after' : List Operation} {lowest lowest' : Operation}
    (h : operators.IsLowest before lowest after)
    (h' : operators.IsLowest before' lowest' after')
    (happend : before ++ lowest :: after = before' ++ lowest' :: after') :
    before = before' ∧ lowest = lowest' ∧ after = after' := by
  induction before generalizing before' with
  | nil =>
      cases before' with
      | nil =>
          injection happend with hlowest hafter
          exact ⟨rfl, hlowest, hafter⟩
      | cons first before' =>
          injection happend with hfirst hafter
          have hlower := h'.before_le (List.mem_cons_self (a := first))
          have hmem : lowest' ∈ after := by
            rw [hafter]
            exact List.mem_append.mpr (Or.inr List.mem_cons_self)
          have hupper := h.after_lt hmem
          rw [hfirst] at hupper
          omega
  | cons first before ih =>
      cases before' with
      | nil =>
          injection happend with hfirst hafter
          have hlower := h.before_le (List.mem_cons_self (a := first))
          have hmem : lowest ∈ after' := by
            rw [← hafter]
            exact List.mem_append.mpr (Or.inr List.mem_cons_self)
          have hupper := h'.after_lt hmem
          rw [hfirst] at hlower
          omega
      | cons first' before' =>
          injection happend with hfirst hrest
          have hbefore : operators.IsLowest before lowest after :=
            ⟨fun hmem => h.before_le (List.mem_cons_of_mem _ hmem), h.after_lt⟩
          have hbefore' : operators.IsLowest before' lowest' after' :=
            ⟨fun hmem => h'.before_le (List.mem_cons_of_mem _ hmem), h'.after_lt⟩
          rcases ih hbefore hbefore' hrest with ⟨hsame, hlowest, hafter⟩
          exact ⟨by rw [hfirst, hsame], hlowest, hafter⟩

@[simp] theorem tree_nil (operators : Operators) (left : Expr) :
    operators.tree left [] = left := by
  rw [tree]

theorem tree_split {operators : Operators} {before after : List Operation}
    {lowest : Operation} (h : operators.IsLowest before lowest after)
    (left : Expr) :
    operators.tree left (before ++ lowest :: after) =
      .binary lowest.1 (operators.tree left before)
        (operators.tree lowest.2 after) := by
  cases happend : before ++ lowest :: after with
  | nil => simp at happend
  | cons first rest =>
      rw [← operators.splitLowest_append first rest] at happend
      rcases isLowest_unique h (operators.splitLowest_isLowest first rest) happend
        with ⟨hbefore, hlowest, hafter⟩
      rw [tree]
      rw [← hbefore, ← hlowest, ← hafter]

theorem exists_isLowest (operators : Operators) {operations : List Operation}
    (h : operations ≠ []) :
    exists before lowest after, operations = before ++ lowest :: after ∧
      operators.IsLowest before lowest after := by
  cases operations with
  | nil => exact absurd rfl h
  | cons first rest =>
      exact ⟨_, _, _, (operators.splitLowest_append first rest).symm,
        operators.splitLowest_isLowest first rest⟩

theorem isLowest_append {operators : Operators} {first lowest : Operation}
    {tighter before after : List Operation}
    (h : operators.IsLowest before lowest after)
    (hfirst : operators.level lowest ≤ operators.level first)
    (htighter : forall operation, operation ∈ tighter ->
      operators.level first < operators.level operation) :
    operators.IsLowest (first :: tighter ++ before) lowest after := by
  constructor
  · intro operation hmem
    rcases List.mem_append.mp hmem with hleft | hbefore
    · rcases List.mem_cons.mp hleft with hsame | hmem
      · rw [hsame]
        exact hfirst
      · exact Int.le_trans hfirst (Int.le_of_lt (htighter _ hmem))
    · exact h.before_le hbefore
  · intro operation hmem
    exact h.after_lt hmem

/--
An operator takes the tighter operations after it into its right operand, up to
the next one that is not tighter.
-/
theorem tree_absorb (operators : Operators) (left : Expr) (first : Operation)
    (tighter rest : List Operation)
    (htighter : forall operation, operation ∈ tighter ->
      operators.level first < operators.level operation)
    (hrest : forall operation, rest.head? = some operation ->
      operators.level operation ≤ operators.level first) :
    operators.tree left (first :: tighter ++ rest) =
      operators.tree
        (.binary first.1 left (operators.tree first.2 tighter)) rest := by
  by_cases hnil : rest = []
  · have hlowest : operators.IsLowest [] first tighter :=
      ⟨fun hmem => (List.not_mem_nil hmem).elim, fun hmem => htighter _ hmem⟩
    have hsplit := tree_split hlowest left
    rw [hnil, List.append_nil, tree_nil]
    simpa using hsplit
  · rcases operators.exists_isLowest hnil with
      ⟨before, lowest, after, happend, hlowest⟩
    have hfirst : operators.level lowest ≤ operators.level first := by
      cases before with
      | nil =>
          apply hrest
          rw [happend]
          rfl
      | cons next before =>
          have hnext : operators.level next ≤ operators.level first := by
            apply hrest
            rw [happend]
            rfl
          exact Int.le_trans (hlowest.before_le List.mem_cons_self) hnext
    have hwhole := isLowest_append hlowest hfirst htighter
    have hbefore := tree_absorb operators left first tighter before htighter (by
      intro operation hhead
      apply hrest
      rw [happend]
      cases before with
      | nil => cases hhead
      | cons next before => exact hhead)
    rw [happend, ← List.append_assoc, tree_split hwhole, hbefore,
      tree_split hlowest]
termination_by rest.length
decreasing_by
  rw [happend, List.length_append, List.length_cons]
  omega

end Operators
namespace Parser

/-!
# Runs of operations

A run is what the loop over operations goes through: operators of at least some
precedence, each with an operand after it, up to a token that is none of them.
-/

inductive Run (least : Int32) : Parser -> List Operation -> Parser -> Prop where
  | stop {parser : Parser} : parser.precedence < least -> Run least parser [] parser
  | step {parser middle rest : Parser} {op : Char} {right : Expr}
      {operations : List Operation} :
      parser.current.kind = .character op ->
      ¬ parser.precedence < least ->
      parser.advance.primary = (.ok right, middle) ->
      Run least middle operations rest ->
      Run least parser ((op, right) :: operations) rest

theorem advance_reaches {parser : Parser} {kind : Token.Kind}
    (h : parser.current.kind = kind) (hkind : kind ≠ .endOfInput) :
    parser.Reaches parser.advance :=
  ⟨[kind], reads_one h hkind⟩

theorem reaches_trans {parser middle rest : Parser} (h : parser.Reaches middle)
    (hrest : middle.Reaches rest) : parser.Reaches rest := by
  rcases h with ⟨kinds, hreads⟩
  rcases hrest with ⟨others, hothers⟩
  exact ⟨kinds ++ others, reads_append hreads hothers⟩

theorem operation_reaches {parser middle : Parser} {op : Char} {right : Expr}
    (hkind : parser.current.kind = .character op)
    (hright : parser.advance.primary = (.ok right, middle)) :
    parser.Reaches middle ∧ middle.left < parser.left := by
  have hoperand := primary_reaches parser.advance
  rw [hright] at hoperand
  constructor
  · exact reaches_trans (advance_reaches hkind (by simp)) hoperand
  · exact Nat.lt_of_le_of_lt (reaches_left hoperand)
      (advance_left_lt_of_kind hkind (by simp))

theorem run_reaches {least : Int32} {parser rest : Parser}
    {operations : List Operation} (h : Run least parser operations rest) :
    parser.Reaches rest := by
  induction h with
  | stop _ => exact reaches_refl _
  | step hkind _ hright _ ih =>
      exact reaches_trans (operation_reaches hkind hright).left ih

theorem run_precedence {least : Int32} {parser rest : Parser}
    {operations : List Operation} (h : Run least parser operations rest) :
    rest.precedence < least := by
  induction h with
  | stop hstop => exact hstop
  | step _ _ _ _ ih => exact ih

theorem level_of_kind {parser : Parser} {op : Char}
    (h : parser.current.kind = .character op) (right : Expr) :
    parser.operators.level (op, right) = parser.precedence.toInt := by
  rw [Operators.level, precedence, h]

theorem run_head {least : Int32} {parser rest : Parser} {first : Operation}
    {operations : List Operation} (h : Run least parser operations rest)
    (hhead : operations.head? = some first) :
    parser.operators.level first = parser.precedence.toInt := by
  cases h with
  | stop _ => cases hhead
  | step hkind _ _ _ =>
      injection hhead with hfirst
      rw [← hfirst]
      exact level_of_kind hkind _

theorem run_level {least : Int32} {parser rest : Parser}
    {operations : List Operation} (h : Run least parser operations rest)
    {operation : Operation} (hmem : operation ∈ operations) :
    least.toInt ≤ parser.operators.level operation := by
  induction h with
  | stop _ => cases hmem
  | step hkind hleast hright _ ih =>
      rcases List.mem_cons.mp hmem with hfirst | hmem
      · rw [hfirst, level_of_kind hkind]
        exact Int32.le_iff_toInt_le.mp (Int32.not_lt.mp hleast)
      · have hsame := reaches_operators (operation_reaches hkind hright).left
        rw [← hsame]
        exact ih hmem

theorem run_split {least tighter : Int32} (hle : least ≤ tighter)
    {parser rest : Parser} {operations : List Operation}
    (h : Run least parser operations rest) :
    exists before after middle, operations = before ++ after ∧
      Run tighter parser before middle ∧ Run least middle after rest := by
  induction h with
  | @stop parser hstop =>
      exact ⟨[], [], parser, rfl, Run.stop (Int32.lt_of_lt_of_le hstop hle),
        Run.stop hstop⟩
  | @step parser middle rest op right operations hkind hleast hright hrun ih =>
      by_cases htighter : parser.precedence < tighter
      · exact ⟨[], _, parser, rfl, Run.stop htighter,
          Run.step hkind hleast hright hrun⟩
      · rcases ih with ⟨before, after, further, happend, hbefore, hafter⟩
        exact ⟨(op, right) :: before, after, further, by rw [happend]; rfl,
          Run.step hkind htighter hright hbefore, hafter⟩

theorem run_append {least tighter : Int32} (hle : least ≤ tighter)
    {parser middle rest : Parser} {before after : List Operation}
    (h : Run tighter parser before middle) (hafter : Run least middle after rest) :
    Run least parser (before ++ after) rest := by
  induction h with
  | stop _ => exact hafter
  | step hkind htighter hright _ ih =>
      apply Run.step hkind _ hright (ih hafter)
      intro hlt
      exact htighter (Int32.lt_of_lt_of_le hlt hle)

/-!
# The loop builds the tree
-/

theorem operations_of_lt {parser : Parser} {least : Int32}
    (h : parser.precedence < least) (left : Expr) :
    parser.operations least left = (.ok left, parser) := by
  rw [operations_eq, if_pos h]

theorem operations_of_character {parser : Parser} {least : Int32} {op : Char}
    (h : ¬ parser.precedence < least)
    (hkind : parser.current.kind = .character op) (left : Expr) :
    parser.operations least left =
      Result.followedBy parser.advance.primary fun right rest =>
        if parser.precedence < rest.precedence then
          Result.followedBy (rest.operations (parser.precedence + 1) right)
            fun right rest => rest.operations least (.binary op left right)
        else
          rest.operations least (.binary op left right) := by
  rw [operations_eq, if_neg h, hkind]

section

variable {least : Int32} {parser middle further rest : Parser} {op : Char}

/-- The right operand of an operator takes the run of tighter operations. -/
theorem tree_of_tighter {before after : List Operation}
    (hkind : parser.current.kind = .character op)
    (hsame : middle.operators = parser.operators)
    (htighter : parser.precedence < middle.precedence)
    (hbefore : Run (parser.precedence + 1) middle before further)
    (hafter : Run least further after rest) (left right : Expr) :
    parser.operators.tree left ((op, right) :: before ++ after) =
      parser.operators.tree
        (.binary op left (parser.operators.tree right before)) after := by
  have hlevel := level_of_kind hkind right
  have hone := toInt_add_one htighter
  have hfurther : further.operators = parser.operators := by
    rw [reaches_operators (run_reaches hbefore), hsame]
  apply parser.operators.tree_absorb left (op, right) before after
  · intro operation hmem
    have hmore := run_level hbefore hmem
    rw [hsame] at hmore
    omega
  · intro operation hhead
    have hfirst := run_head hafter hhead
    have hless := Int32.lt_iff_toInt_lt.mp (run_precedence hbefore)
    rw [hfurther] at hfirst
    omega

/-- Before an operator that is not tighter the right operand is complete. -/
theorem tree_of_not_tighter {operations : List Operation}
    (hkind : parser.current.kind = .character op)
    (hsame : middle.operators = parser.operators)
    (htighter : ¬ parser.precedence < middle.precedence)
    (hrun : Run least middle operations rest) (left right : Expr) :
    parser.operators.tree left ((op, right) :: operations) =
      parser.operators.tree (.binary op left right) operations := by
  have hlevel := level_of_kind hkind right
  have habsorb := parser.operators.tree_absorb left (op, right) [] operations
    (fun operation hmem => absurd hmem List.not_mem_nil)
    (by
      intro operation hhead
      have hfirst := run_head hrun hhead
      rw [Int32.lt_iff_toInt_lt] at htighter
      rw [hsame] at hfirst
      omega)
  rw [Operators.tree_nil] at habsorb
  exact habsorb

theorem le_precedence_add_one (hleast : ¬ parser.precedence < least)
    (htighter : parser.precedence < middle.precedence) :
    least ≤ parser.precedence + 1 := by
  have hone := toInt_add_one htighter
  rw [Int32.not_lt, Int32.le_iff_toInt_le] at hleast
  rw [Int32.le_iff_toInt_le, hone]
  omega

end

/-- The loop goes through a run and leaves the tree of its operations. -/
theorem operations_of_run {least : Int32} {parser rest : Parser}
    {operations : List Operation} (h : Run least parser operations rest)
    (left : Expr) :
    parser.operations least left =
      (.ok (parser.operators.tree left operations), rest) := by
  cases h with
  | stop hstop =>
      rw [operations_of_lt hstop, Operators.tree_nil]
  | @step _ middle _ op right operations hkind hleast hright hrun =>
      have hsame : middle.operators = parser.operators :=
        reaches_operators (operation_reaches hkind hright).left
      rw [operations_of_character hleast hkind, hright, Result.followedBy_ok]
      by_cases htighter : parser.precedence < middle.precedence
      · rcases run_split (le_precedence_add_one hleast htighter) hrun with
          ⟨before, after, further, happend, hbefore, hafter⟩
        have hfurther : further.operators = parser.operators := by
          rw [reaches_operators (run_reaches hbefore), hsame]
        have hinner := operations_of_run hbefore right
        have houter := operations_of_run hafter
          (.binary op left (middle.operators.tree right before))
        have htree := tree_of_tighter hkind hsame htighter hbefore hafter left right
        rw [if_pos htighter, hinner, Result.followedBy_ok, houter, happend, hsame,
          hfurther, ← htree]
        rfl
      · have houter := operations_of_run hrun (.binary op left right)
        rw [if_neg htighter, houter, hsame,
          tree_of_not_tighter hkind hsame htighter hrun left right]
termination_by operations.length
decreasing_by
  · rw [happend, List.length_cons, List.length_append]
    omega
  · rw [happend, List.length_cons, List.length_append]
    omega
  · exact Nat.lt_succ_self _

theorem character_of_nonneg {parser : Parser} (h : 0 ≤ parser.precedence) :
    exists op, parser.current.kind = .character op := by
  have hneg : ¬ 0 ≤ Operators.notAnOperator := by decide
  unfold precedence at h
  cases hkind : parser.current.kind with
  | character op => exact ⟨op, rfl⟩
  | endOfInput | define | external | identifier | number =>
      rw [hkind] at h
      exact absurd h hneg

/-- Whatever the loop returns, it has gone through a run. -/
theorem run_of_operations {least : Int32} (hleast : 0 ≤ least)
    {parser rest : Parser} {left value : Expr}
    (h : parser.operations least left = (.ok value, rest)) :
    exists operations, Run least parser operations rest := by
  by_cases hstop : parser.precedence < least
  · rw [operations_of_lt hstop] at h
    injection h with _ hrest
    rw [← hrest]
    exact ⟨[], Run.stop hstop⟩
  · have hnonneg := nonneg_of_not_lt hleast hstop
    rcases character_of_nonneg hnonneg with ⟨op, hkind⟩
    rw [operations_of_character hstop hkind] at h
    rcases Result.followedBy_eq_ok h with ⟨right, middle, hright, hloop⟩
    have hused := operation_reaches hkind hright
    by_cases htighter : parser.precedence < middle.precedence
    · rw [if_pos htighter] at hloop
      rcases Result.followedBy_eq_ok hloop with ⟨wider, further, hwider, hloop⟩
      have hone := nonneg_add_one htighter hnonneg
      have hle := le_precedence_add_one hstop htighter
      rcases run_of_operations hone hwider with ⟨before, hbefore⟩
      have hfurther := reaches_left (run_reaches hbefore)
      rcases run_of_operations hleast hloop with ⟨after, hafter⟩
      exact ⟨(op, right) :: (before ++ after),
        Run.step hkind hstop hright (run_append hle hbefore hafter)⟩
    · rw [if_neg htighter] at hloop
      rcases run_of_operations hleast hloop with ⟨after, hafter⟩
      exact ⟨(op, right) :: after, Run.step hkind hstop hright hafter⟩
termination_by parser.left
decreasing_by
  · exact hused.right
  · have := hused.right
    omega
  · exact hused.right

theorem operations_eq_ok_iff {least : Int32} (hleast : 0 ≤ least)
    {parser rest : Parser} {left value : Expr} :
    parser.operations least left = (.ok value, rest) <->
      exists operations, Run least parser operations rest ∧
        value = parser.operators.tree left operations := by
  constructor
  · intro h
    rcases run_of_operations hleast h with ⟨operations, hrun⟩
    rw [operations_of_run hrun] at h
    injection h with hvalue _
    injection hvalue with hvalue
    exact ⟨operations, hrun, hvalue.symm⟩
  · intro h
    rcases h with ⟨operations, hrun, hvalue⟩
    rw [hvalue]
    exact operations_of_run hrun left

/-!
# The loop breaks off

The loop fails in the operand after one of its operators, and everything before
that operator is read as in a run.
-/

inductive Broken (least : Int32) : Parser -> SyntaxError -> Parser -> Prop where
  | operand {parser rest : Parser} {op : Char} {error : SyntaxError} :
      parser.current.kind = .character op -> ¬ parser.precedence < least ->
      parser.advance.primary = (.error error, rest) ->
      Broken least parser error rest
  | step {parser middle rest : Parser} {op : Char} {right : Expr}
      {error : SyntaxError} :
      parser.current.kind = .character op -> ¬ parser.precedence < least ->
      parser.advance.primary = (.ok right, middle) ->
      Broken least middle error rest -> Broken least parser error rest

theorem broken_of_le {least tighter : Int32} (hle : least ≤ tighter)
    {parser rest : Parser} {error : SyntaxError}
    (h : Broken tighter parser error rest) : Broken least parser error rest := by
  induction h with
  | operand hkind htighter herror =>
      exact Broken.operand hkind
        (fun hlt => htighter (Int32.lt_of_lt_of_le hlt hle)) herror
  | step hkind htighter hright _ ih =>
      exact Broken.step hkind
        (fun hlt => htighter (Int32.lt_of_lt_of_le hlt hle)) hright ih

theorem broken_after_run {least tighter : Int32} (hle : least ≤ tighter)
    {parser middle rest : Parser} {before : List Operation} {error : SyntaxError}
    (h : Run tighter parser before middle) (hafter : Broken least middle error rest) :
    Broken least parser error rest := by
  induction h with
  | stop _ => exact hafter
  | step hkind htighter hright _ ih =>
      exact Broken.step hkind
        (fun hlt => htighter (Int32.lt_of_lt_of_le hlt hle)) hright (ih hafter)

theorem broken_of_operations {least : Int32} (hleast : 0 ≤ least)
    {parser rest : Parser} {left : Expr} {error : SyntaxError}
    (h : parser.operations least left = (.error error, rest)) :
    Broken least parser error rest := by
  by_cases hstop : parser.precedence < least
  · rw [operations_of_lt hstop] at h
    cases h
  · have hnonneg := nonneg_of_not_lt hleast hstop
    rcases character_of_nonneg hnonneg with ⟨op, hkind⟩
    rw [operations_of_character hstop hkind] at h
    rcases Result.followedBy_eq_error h with herror | ⟨right, middle, hright, hloop⟩
    · exact Broken.operand hkind hstop herror
    have hused := operation_reaches hkind hright
    apply Broken.step hkind hstop hright
    by_cases htighter : parser.precedence < middle.precedence
    · rw [if_pos htighter] at hloop
      have hone := nonneg_add_one htighter hnonneg
      have hle := le_precedence_add_one hstop htighter
      rcases Result.followedBy_eq_error hloop with
        herror | ⟨wider, further, hwider, hloop⟩
      · exact broken_of_le hle (broken_of_operations hone herror)
      · rcases run_of_operations hone hwider with ⟨before, hbefore⟩
        have hfurther := reaches_left (run_reaches hbefore)
        exact broken_after_run hle hbefore (broken_of_operations hleast hloop)
    · rw [if_neg htighter] at hloop
      exact broken_of_operations hleast hloop
termination_by parser.left
decreasing_by
  · exact hused.right
  · have := hused.right
    omega
  · exact hused.right

end Parser
end Kaleidoscope
