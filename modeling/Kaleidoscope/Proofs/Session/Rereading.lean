import Kaleidoscope.Proofs.Session.RoundTrip

/-!
# Reading units without separators

Units that are written one after another, each on a line of its own, need not be
read as the same units: a name at the end of one is called by an operation in
parentheses that is the next.  No other two neighbours run together, so it is
known what the lines are read as.
-/

namespace Kaleidoscope

def printed (units : List TopLevel) : String :=
  String.join (units.map fun unit => unit.sourceForm ++ "\n")

namespace TopLevel

/--
Two neighbours that run together, and what they are read as: a unit whose body is
a variable takes the operation after it for the only argument of a call.
-/
inductive Fuses : TopLevel -> TopLevel -> TopLevel -> Prop where
  | definition (prototype : Prototype) (name : String) (anonymous : Prototype)
      (op : Char) (left right : Expr) :
      Fuses (.definition ⟨prototype, .var name⟩)
        (.expression ⟨anonymous, .binary op left right⟩)
        (.definition ⟨prototype, .call name [.binary op left right]⟩)
  | expression (prototype : Prototype) (name : String) (anonymous : Prototype)
      (op : Char) (left right : Expr) :
      Fuses (.expression ⟨prototype, .var name⟩)
        (.expression ⟨anonymous, .binary op left right⟩)
        (.expression ⟨prototype, .call name [.binary op left right]⟩)

theorem fuses_unique {unit next call other : TopLevel} (h : Fuses unit next call)
    (hother : Fuses unit next other) : other = call := by
  cases h with
  | definition | expression =>
      cases hother
      rfl

end TopLevel

def FusesAt (units : List TopLevel) (place : Nat) (call : TopLevel) : Prop :=
  exists unit next, units[place]? = some unit ∧ units[place + 1]? = some next ∧
    TopLevel.Fuses unit next call

inductive Rereads : List TopLevel -> List TopLevel -> Prop where
  | nothing : Rereads [] []
  | fused {unit next call : TopLevel} {units others : List TopLevel} :
      TopLevel.Fuses unit next call -> Rereads units others ->
      Rereads (unit :: next :: units) (call :: others)
  | apart {unit : TopLevel} {units others : List TopLevel} :
      (forall next call, units.head? = some next -> ¬ TopLevel.Fuses unit next call) ->
      Rereads units others -> Rereads (unit :: units) (unit :: others)

theorem exists_rereads (units : List TopLevel) : exists others, Rereads units others := by
  cases units with
  | nil => exact ⟨[], Rereads.nothing⟩
  | cons unit units =>
      by_cases h : exists next call, units.head? = some next ∧ TopLevel.Fuses unit next call
      · rcases h with ⟨next, call, hhead, hfuses⟩
        rcases List.head?_eq_some_iff.mp hhead with ⟨rest, hcons⟩
        rcases exists_rereads rest with ⟨others, hothers⟩
        rw [hcons]
        exact ⟨call :: others, Rereads.fused hfuses hothers⟩
      · rcases exists_rereads units with ⟨others, hothers⟩
        exists unit :: others
        apply Rereads.apart _ hothers
        intro next call hhead hfuses
        exact h ⟨next, call, hhead, hfuses⟩
termination_by units.length
decreasing_by
  · rw [hcons, List.length_cons, List.length_cons]
    omega
  · exact Nat.lt_succ_self _

/-!
# Where the first two units run together
-/

theorem fusesAt_zero_cons {unit call : TopLevel} {units : List TopLevel} :
    FusesAt (unit :: units) 0 call <->
      exists next, units.head? = some next ∧ TopLevel.Fuses unit next call := by
  constructor
  · rintro ⟨first, next, hfirst, hnext, hfuses⟩
    injection hfirst with hfirst
    rw [← hfirst] at hfuses
    exact ⟨next, by rw [List.head?_eq_getElem?]; exact hnext, hfuses⟩
  · rintro ⟨next, hnext, hfuses⟩
    rw [List.head?_eq_getElem?] at hnext
    exact ⟨unit, next, rfl, hnext, hfuses⟩

theorem fusesAt_succ_cons {unit call : TopLevel} {units : List TopLevel} {place : Nat} :
    FusesAt (unit :: units) (place + 1) call <-> FusesAt units place call :=
  Iff.rfl

/-- The units are read as they are, or two of them run together and one is lost. -/
theorem rereads_eq_or_shorter {units others : List TopLevel} (h : Rereads units others) :
    others = units ∧ (forall place call, ¬ FusesAt units place call) ∨
      others.length < units.length ∧ exists place call, FusesAt units place call := by
  induction h with
  | nothing =>
      left
      refine ⟨rfl, ?_⟩
      rintro place call ⟨unit, next, hunit, _⟩
      cases hunit
  | @fused unit next call units others hfuses _ ih =>
      right
      constructor
      · rw [List.length_cons, List.length_cons, List.length_cons]
        rcases ih with ⟨hsame, _⟩ | ⟨hshorter, _⟩
        · rw [hsame]
          omega
        · omega
      · exact ⟨0, call, fusesAt_zero_cons.mpr ⟨next, rfl, hfuses⟩⟩
  | @apart unit units others hapart _ ih =>
      rcases ih with ⟨hsame, hnone⟩ | ⟨hshorter, place, call, hfuses⟩
      · left
        refine ⟨congrArg (unit :: ·) hsame, ?_⟩
        intro place call hfuses
        cases place with
        | zero =>
            rcases fusesAt_zero_cons.mp hfuses with ⟨next, hhead, hfuses⟩
            exact hapart next call hhead hfuses
        | succ place => exact hnone place call (fusesAt_succ_cons.mp hfuses)
      · right
        exact ⟨Nat.succ_lt_succ hshorter, place + 1, call, fusesAt_succ_cons.mpr hfuses⟩

/-- Up to the first two that run together the units are read as they are. -/
theorem rereads_first {units others : List TopLevel} (h : Rereads units others)
    {place : Nat} {call : TopLevel} (hfuses : FusesAt units place call)
    (hfirst : forall earlier other, earlier < place -> ¬ FusesAt units earlier other) :
    others.take place = units.take place ∧ others[place]? = some call := by
  induction h generalizing place with
  | nothing =>
      rcases hfuses with ⟨unit, next, hunit, _⟩
      cases hunit
  | @fused unit next other units others hpair _ ih =>
      cases place with
      | zero =>
          rcases fusesAt_zero_cons.mp hfuses with ⟨next', hhead, hpair'⟩
          injection hhead with hhead
          rw [← hhead] at hpair'
          rw [TopLevel.fuses_unique hpair hpair']
          exact ⟨rfl, rfl⟩
      | succ place =>
          have hzero : FusesAt (unit :: next :: units) 0 other :=
            fusesAt_zero_cons.mpr ⟨next, rfl, hpair⟩
          exact absurd hzero (hfirst 0 other (Nat.succ_pos place))
  | @apart unit units others hapart _ ih =>
      cases place with
      | zero =>
          rcases fusesAt_zero_cons.mp hfuses with ⟨next, hhead, hpair⟩
          exact absurd hpair (hapart next call hhead)
      | succ place =>
          rcases ih (fusesAt_succ_cons.mp hfuses)
              (fun earlier other hless hearlier =>
                hfirst (earlier + 1) other (Nat.succ_lt_succ hless)
                  (fusesAt_succ_cons.mpr hearlier)) with ⟨htake, hcall⟩
          exact ⟨congrArg (unit :: ·) htake, hcall⟩

/-!
# The kinds of two neighbours
-/

theorem variable_of_endsInIdentifier {value : Expr} (h : EndsInIdentifier value.kinds) :
    exists name, value = .var name := by
  cases value with
  | var name => exact ⟨name, rfl⟩
  | number value =>
      rcases h with ⟨name, hlast⟩
      cases hlast
  | binary op left right =>
      rw [Expr.kinds, ← List.cons_append] at h
      exact absurd h (not_endsInIdentifier_close _)
  | call callee arguments =>
      rw [Expr.kinds, ← List.cons_append, ← List.cons_append] at h
      exact absurd h (not_endsInIdentifier_close _)

theorem Expr.kinds_begin (value : Expr) :
    exists first rest, value.kinds = first :: rest ∧ BeginsOperand first ∧
      (first = .character '(' -> exists op left right, value = .binary op left right) := by
  cases value with
  | number value => exact ⟨_, _, rfl, BeginsOperand.number value, nofun⟩
  | var name => exact ⟨_, _, rfl, BeginsOperand.name name, nofun⟩
  | binary op left right =>
      exact ⟨_, _, rfl, BeginsOperand.opening, fun _ => ⟨op, left, right, rfl⟩⟩
  | call callee arguments => exact ⟨_, _, rfl, BeginsOperand.name callee, nofun⟩

theorem not_isOperator_of_beginsOperand {kind : Token.Kind} (h : BeginsOperand kind) :
    ¬ Operators.standard.IsOperator kind := by
  cases h with
  | number | name =>
      rintro ⟨op, precedence, hkind, _⟩
      cases hkind
  | opening => exact Operators.standard_sparesDelimiters '(' rfl

theorem TopLevel.kinds_begin (unit : TopLevel) :
    exists first rest, unit.kinds = first :: rest ∧
      ¬ Operators.standard.IsOperator first ∧
      (first = .character '(' -> exists anonymous op left right,
        unit = .expression ⟨anonymous, .binary op left right⟩) := by
  cases unit with
  | definition content | external prototype =>
      refine ⟨_, _, rfl, ?_, nofun⟩
      rintro ⟨op, precedence, hkind, _⟩
      cases hkind
  | expression content =>
      rcases content with ⟨anonymous, body⟩
      rcases body.kinds_begin with ⟨first, rest, hkinds, hfirst, hopen⟩
      refine ⟨first, rest, hkinds, not_isOperator_of_beginsOperand hfirst, ?_⟩
      intro hsame
      rcases hopen hsame with ⟨op, left, right, hbody⟩
      rw [hbody]
      exact ⟨anonymous, op, left, right, rfl⟩

theorem TopLevel.exists_fuses {unit : TopLevel} (h : EndsInIdentifier unit.kinds)
    (anonymous : Prototype) (op : Char) (left right : Expr) :
    exists call, Fuses unit (.expression ⟨anonymous, .binary op left right⟩) call := by
  cases unit with
  | external prototype =>
      rw [kinds, Prototype.kinds, ← List.cons_append, ← List.cons_append,
        ← List.cons_append] at h
      exact absurd h (not_endsInIdentifier_close _)
  | definition content =>
      rcases content with ⟨prototype, body⟩
      have hne : body.kinds ≠ [] := by
        rcases body.kinds_begin with ⟨_, _, hbody, _⟩
        rw [hbody]
        exact List.cons_ne_nil _ _
      rw [kinds, ← List.cons_append, endsInIdentifier_append hne] at h
      rcases variable_of_endsInIdentifier h with ⟨name, hbody⟩
      rw [hbody]
      exact ⟨_, Fuses.definition prototype name anonymous op left right⟩
  | expression content =>
      rcases content with ⟨prototype, body⟩
      rcases variable_of_endsInIdentifier h with ⟨name, hbody⟩
      dsimp only at hbody
      rw [hbody]
      exact ⟨_, Fuses.expression prototype name anonymous op left right⟩

theorem follows_of_apart {unit next : TopLevel} {first : Token.Kind}
    {rest : List Token.Kind} (hnext : next.kinds = first :: rest)
    (hapart : forall call, ¬ TopLevel.Fuses unit next call) :
    Follows .standard unit unit.kinds first := by
  rcases next.kinds_begin with ⟨first', rest', hkinds, hoperator, hopen⟩
  rw [hnext] at hkinds
  injection hkinds with hsame _
  rw [← hsame] at hoperator hopen
  apply Session.follows_of_stops
  refine ⟨hoperator, fun hends hcall => ?_⟩
  rcases hopen hcall with ⟨anonymous, op, left, right, hoperation⟩
  rcases TopLevel.exists_fuses hends anonymous op left right with ⟨call, hfuses⟩
  rw [← hoperation] at hfuses
  exact hapart call hfuses

theorem derives_called_operation (name : String) {op : Char} {left right : Expr}
    (h : (Expr.binary op left right).Readable) :
    Derives .standard (.identifier name :: (Expr.binary op left right).kinds)
      (.expression (.call name [.binary op left right])) := by
  rcases h with ⟨hop, hleft, hright⟩
  have hinside := derives_binary hop
    (left.derives_kinds (left.writable_of_readable hleft))
    (right.derives_kinds (right.writable_of_readable hright))
  rw [Expr.kinds]
  exact derives_expression (Derives.call name (Derives.lastArgument hinside))

theorem derives_fused {unit next call : TopLevel} (h : TopLevel.Fuses unit next call)
    (hunit : unit.Readable) (hnext : next.Readable) :
    Derives .standard (unit.kinds ++ next.kinds) (.unit call) := by
  cases h with
  | definition prototype name anonymous op left right =>
      have hbody := derives_called_operation name hnext.right
      have hdefinition := Derives.definition prototype.derives_kinds hbody
      simpa only [TopLevel.kinds, Expr.kinds, List.cons_append, List.append_assoc,
        List.nil_append] using hdefinition
  | expression prototype name anonymous op left right =>
      have hprototype : prototype = .anonymous := hunit.left
      rw [hprototype]
      exact Derives.bare (derives_called_operation name hnext.right)

theorem follows_fused {unit next call : TopLevel} (h : TopLevel.Fuses unit next call)
    {first : Token.Kind} (hfirst : ¬ Operators.standard.IsOperator first) :
    Follows .standard call (unit.kinds ++ next.kinds) first := by
  apply Session.follows_of_stops
  refine ⟨hfirst, fun hends => ?_⟩
  cases h with
  | definition prototype name anonymous op left right
  | expression prototype name anonymous op left right =>
      have hne : (Expr.binary op left right).kinds ≠ [] := List.cons_ne_nil _ _
      rcases variable_of_endsInIdentifier ((endsInIdentifier_append hne).mp hends) with
        ⟨_, hbody⟩
      cases hbody

/-!
# Reading the lines
-/

theorem spells_printed {units : List TopLevel}
    (h : forall unit, unit ∈ units -> unit.Readable) :
    Spells (printed units).toList (units.flatMap TopLevel.kinds) := by
  induction units with
  | nil => exact Spells.done rfl
  | cons unit units ih =>
      have hunit := TopLevel.prepends_sourceForm (h unit List.mem_cons_self)
      have hothers := ih fun other hother => h other (List.mem_cons_of_mem unit hother)
      have htext : (printed (unit :: units)).toList =
          unit.sourceForm.toList ++ '\n' :: (printed units).toList := by
        rw [printed, List.map_cons, String.join_cons, String.toList_append,
          String.toList_append, List.append_assoc]
        rfl
      have hblank : IsBlank '\n' := by simp [IsBlank]
      rw [htext, List.flatMap_cons]
      exact hunit _ _ (separates_cons rfl rfl _) (spells_blank hblank hothers)

theorem next_kind (units : List TopLevel) :
    exists next after,
      units.flatMap TopLevel.kinds ++ [.endOfInput] = next :: after ∧
        ¬ Operators.standard.IsOperator next ∧
        forall unit : TopLevel,
          (forall other call, units.head? = some other ->
            ¬ TopLevel.Fuses unit other call) ->
          Follows .standard unit unit.kinds next := by
  cases units with
  | nil =>
      have hend := Operators.standard.not_isOperator_endOfInput
      refine ⟨_, _, rfl, hend, fun unit _ => ?_⟩
      exact Session.follows_of_stops ⟨hend, fun _ => nofun⟩ unit
  | cons other units =>
      rcases other.kinds_begin with ⟨first, rest, hkinds, hoperator, _⟩
      refine ⟨first, rest ++ (units.flatMap TopLevel.kinds ++ [.endOfInput]), ?_,
        hoperator, fun unit hapart => ?_⟩
      · rw [List.flatMap_cons, hkinds, List.append_assoc, List.cons_append]
      · exact follows_of_apart hkinds fun call => hapart other call rfl

namespace Session

theorem outcomes_of_rereads {units others : List TopLevel} (h : Rereads units others)
    (hunits : forall unit, unit ∈ units -> unit.Readable) {parser : Parser}
    (hoperators : parser.operators = .standard)
    (hkinds : parser.tokens.map Token.kind =
      units.flatMap TopLevel.kinds ++ [.endOfInput]) :
    outcomes parser = others.map .ok := by
  induction h generalizing parser with
  | nothing => exact outcomes_of_end (Parser.current_of_kinds hkinds)
  | @fused unit next call units others hfuses _ ih =>
      have hrest : forall other, other ∈ units -> other.Readable := fun other hmem =>
        hunits other (List.mem_cons_of_mem unit (List.mem_cons_of_mem next hmem))
      have hderives := derives_fused hfuses (hunits unit List.mem_cons_self)
        (hunits next (List.mem_cons_of_mem unit List.mem_cons_self))
      rcases next_kind units with ⟨first, after, hafter, hoperator, _⟩
      rw [List.flatMap_cons, List.flatMap_cons, ← List.append_assoc, List.append_assoc,
        hafter] at hkinds
      rcases outcomes_of_derives hoperators hderives hkinds
          (follows_fused hfuses hoperator) with ⟨rest, houtcomes, hsame, htokens⟩
      rw [houtcomes, ih hrest hsame (htokens.trans hafter.symm)]
      rfl
  | @apart unit units others hapart _ ih =>
      have hrest : forall other, other ∈ units -> other.Readable := fun other hmem =>
        hunits other (List.mem_cons_of_mem unit hmem)
      have hderives := unit.derives_kinds (hunits unit List.mem_cons_self)
      rcases next_kind units with ⟨first, after, hafter, _, hfollows⟩
      rw [List.flatMap_cons, List.append_assoc, hafter] at hkinds
      rcases outcomes_of_derives hoperators hderives hkinds (hfollows unit hapart) with
        ⟨rest, houtcomes, hsame, htokens⟩
      rw [houtcomes, ih hrest hsame (htokens.trans hafter.symm)]
      rfl

end Session

theorem parseSource_printed {units others : List TopLevel} (h : Rereads units others)
    (hunits : forall unit, unit ∈ units -> unit.Readable) :
    parseSource (printed units) = others.map .ok := by
  apply Session.outcomes_of_rereads h hunits rfl
  rw [Parser.start_tokens]
  exact tokenize_of_spells (spells_printed hunits)

end Kaleidoscope
