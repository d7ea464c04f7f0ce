import Kaleidoscope.Proofs.Grammar.Soundness
import Kaleidoscope.Proofs.Parser.Termination
import Kaleidoscope.Session.Round

/-!
# Rounds without a bound

Every round uses a token, so the bound that rounds are listed with is never
reached, and the outcomes of a session satisfy one equation for each kind of
round.
-/

namespace Kaleidoscope

theorem derives_unit_begins {operators : Operators} {kinds : List Token.Kind}
    {unit : TopLevel} (h : Derives operators kinds (.unit unit)) :
    exists first rest, kinds = first :: rest ∧ first ≠ .endOfInput ∧
      first ≠ .character ';' := by
  cases h with
  | definition _ _ => exact ⟨_, _, rfl, nofun, nofun⟩
  | external _ => exact ⟨_, _, rfl, nofun, nofun⟩
  | bare hkinds =>
      rcases derives_begins hkinds with ⟨first, rest, hcons, hfirst⟩
      refine ⟨first, rest, hcons, ?_⟩
      cases hfirst with
      | number value => exact ⟨nofun, nofun⟩
      | name name => exact ⟨nofun, nofun⟩
      | opening => decide

namespace Parser

def Lasting (parser : Parser) : Prop :=
  parser.current.isEnd = true -> parser.advance.current.isEnd = true

theorem advance_lasting (parser : Parser) : parser.advance.Lasting :=
  Scanner.next_isEnd_of_isEnd

theorem start_lasting (scanner : Scanner) : (start scanner).Lasting :=
  Scanner.next_isEnd_of_isEnd

theorem reaches_lasting {parser rest : Parser} (h : parser.Reaches rest)
    (hlasting : parser.Lasting) : rest.Lasting := by
  rcases h with ⟨kinds, hreads⟩
  induction hreads with
  | nothing _ => exact hlasting
  | token _ _ ih => exact ih (advance_lasting _)

theorem advance_current_of_end {parser : Parser} (hlasting : parser.Lasting)
    (h : parser.current.kind = .endOfInput) :
    parser.advance.current.kind = .endOfInput :=
  (Token.isEnd_iff _).mp (hlasting (isEnd_of_kind h))

structure Throughout (p : Token -> Prop) (parser : Parser) : Prop where
  lasting : parser.Lasting
  tokens {token : Token} :
    token ∈ parser.tokens -> token.kind ≠ .endOfInput -> p token

section

variable {p : Token -> Prop} {parser rest : Parser}

theorem reaches_throughout (h : parser.Reaches rest) (hall : parser.Throughout p) :
    rest.Throughout p where
  lasting := reaches_lasting h hall.lasting
  tokens hmem := by
    rcases h with ⟨kinds, hreads⟩
    rcases reads_tokens hreads with ⟨used, _, htokens⟩
    apply hall.tokens
    rw [htokens]
    exact List.mem_append_right used hmem

theorem advance_throughout (hall : parser.Throughout p) :
    parser.advance.Throughout p := by
  by_cases hend : parser.current.kind = .endOfInput
  · have hnext := advance_current_of_end hall.lasting hend
    constructor
    · exact advance_lasting parser
    · intro token hmem hkind
      rw [tokens_of_isEnd (isEnd_of_kind hnext)] at hmem
      rw [List.mem_singleton.mp hmem] at hkind
      exact absurd hnext hkind
  · exact reaches_throughout ⟨_, reads_one rfl hend⟩ hall

theorem current_throughout (hall : parser.Throughout p)
    (hkind : parser.current.kind ≠ .endOfInput) : p parser.current := by
  rcases tokens_eq_cons parser with ⟨after, hafter⟩
  apply hall.tokens _ hkind
  rw [hafter]
  exact List.mem_cons_self

end

theorem error_left_lt {parser rest : Parser} {error : SyntaxError}
    (hkind : parser.current.kind ≠ .endOfInput)
    (h : parser.topLevel = (.error error, rest)) :
    rest.advance.left < parser.left := by
  rcases reaches_of_topLevel h with ⟨kinds, hreads⟩
  cases kinds with
  | nil =>
      rw [← reads_nil_inv hreads]
      exact advance_left_lt hkind
  | cons kind kinds =>
      have hadvance := advance_left_le rest
      rw [reads_left hreads, List.length_cons]
      omega

end Parser

namespace Session

/-!
# One round
-/

theorem round?_of_end {parser : Parser} (h : parser.current.kind = .endOfInput) :
    round? parser = none := by
  rw [round?, h]

theorem round?_of_semicolon {parser : Parser}
    (h : parser.current.kind = .character ';') :
    round? parser = some ⟨none, parser.advance⟩ := by
  rw [round?, h]
  rfl

theorem round?_of_unit {parser : Parser} (hend : parser.current.kind ≠ .endOfInput)
    (hsemicolon : parser.current.kind ≠ .character ';') :
    round? parser =
      match parser.topLevel with
      | (.ok unit, rest) => some ⟨some (.ok unit), rest⟩
      | (.error error, rest) => some ⟨some (.error error), rest.advance⟩ := by
  unfold round?
  split
  · next hkind => exact absurd hkind hend
  · next hkind => exact absurd hkind hsemicolon
  · rfl

/-- What a round can be, by its first token and by what was read. -/
inductive RoundOf (parser : Parser) : Round -> Prop where
  | semicolon :
      parser.current.kind = .character ';' -> RoundOf parser ⟨none, parser.advance⟩
  | unit {unit : TopLevel} {rest : Parser} :
      parser.current.kind ≠ .character ';' ->
      parser.topLevel = (.ok unit, rest) -> RoundOf parser ⟨some (.ok unit), rest⟩
  | error {error : SyntaxError} {rest : Parser} :
      parser.current.kind ≠ .character ';' ->
      parser.topLevel = (.error error, rest) ->
      RoundOf parser ⟨some (.error error), rest.advance⟩

theorem roundOf_of_round? {parser : Parser} {round : Round}
    (h : round? parser = some round) :
    parser.current.kind ≠ .endOfInput ∧ RoundOf parser round := by
  by_cases hend : parser.current.kind = .endOfInput
  · rw [round?_of_end hend] at h
    cases h
  · refine ⟨hend, ?_⟩
    by_cases hsemicolon : parser.current.kind = .character ';'
    · rw [round?_of_semicolon hsemicolon] at h
      cases h
      exact RoundOf.semicolon hsemicolon
    · rw [round?_of_unit hend hsemicolon] at h
      split at h
      · next unit rest hparsed =>
          cases h
          exact RoundOf.unit hsemicolon hparsed
      · next error rest hfailed =>
          cases h
          exact RoundOf.error hsemicolon hfailed

theorem round?_left_lt {parser : Parser} {round : Round}
    (h : round? parser = some round) : round.next.left < parser.left := by
  rcases roundOf_of_round? h with ⟨hend, hround⟩
  cases hround with
  | semicolon _ => exact Parser.advance_left_lt hend
  | unit _ hparsed => exact Parser.topLevel_left_lt hparsed
  | error _ hfailed => exact Parser.error_left_lt hend hfailed

theorem end_of_round?_eq_none {parser : Parser} (h : round? parser = none) :
    parser.current.kind = .endOfInput := by
  by_cases hend : parser.current.kind = .endOfInput
  · exact hend
  · by_cases hsemicolon : parser.current.kind = .character ';'
    · rw [round?_of_semicolon hsemicolon] at h
      cases h
    · rw [round?_of_unit hend hsemicolon] at h
      split at h
      · cases h
      · cases h

/-!
# All rounds
-/

theorem roundsWithin_eq {bound other : Nat} {parser : Parser}
    (hbound : parser.left ≤ bound) (hother : parser.left ≤ other) :
    roundsWithin bound parser = roundsWithin other parser := by
  induction bound generalizing other parser with
  | zero =>
      cases other with
      | zero => rfl
      | succ other =>
          cases hround : round? parser with
          | none => rw [roundsWithin, roundsWithin, hround]
          | some round =>
              have hless := round?_left_lt hround
              omega
  | succ bound ih =>
      cases hround : round? parser with
      | none =>
          cases other with
          | zero => rw [roundsWithin, roundsWithin, hround]
          | succ other => rw [roundsWithin, roundsWithin, hround]
      | some round =>
          have hless := round?_left_lt hround
          cases other with
          | zero => omega
          | succ other =>
              rw [roundsWithin, roundsWithin, hround]
              exact congrArg (round :: ·)
                (ih (Nat.le_of_lt_succ (Nat.lt_of_lt_of_le hless hbound))
                  (Nat.le_of_lt_succ (Nat.lt_of_lt_of_le hless hother)))

theorem rounds_eq (parser : Parser) :
    rounds parser =
      match round? parser with
      | none => []
      | some round => round :: rounds round.next := by
  have hpending := Parser.left_le_pending parser
  rw [rounds, roundsWithin_eq hpending (Nat.le_succ_of_le hpending), roundsWithin]
  cases hround : round? parser with
  | none => rfl
  | some round =>
      have hless := round?_left_lt hround
      have hnext := Parser.left_le_pending round.next
      exact congrArg (round :: ·)
        (roundsWithin_eq (Nat.le_of_lt (Nat.lt_of_lt_of_le hless hpending)) hnext)

/-- What holds of the rounds of a session if each round keeps it. -/
theorem rounds_induction {motive : Parser -> List Round -> Prop}
    (atEnd : forall parser : Parser, parser.current.kind = .endOfInput ->
      motive parser [])
    (step : forall (parser : Parser) (round : Round),
      parser.current.kind ≠ .endOfInput -> RoundOf parser round ->
      motive round.next (rounds round.next) ->
      motive parser (round :: rounds round.next))
    (parser : Parser) : motive parser (rounds parser) := by
  rw [rounds_eq]
  cases hround : round? parser with
  | none => exact atEnd parser (end_of_round?_eq_none hround)
  | some round =>
      have hless := round?_left_lt hround
      rcases roundOf_of_round? hround with ⟨hend, hkind⟩
      exact step parser round hend hkind (rounds_induction atEnd step round.next)
termination_by parser.left

section

variable {parser rest : Parser}

theorem rounds_of_end (h : parser.current.kind = .endOfInput) : rounds parser = [] := by
  rw [rounds_eq, round?_of_end h]

theorem rounds_of_semicolon (h : parser.current.kind = .character ';') :
    rounds parser = ⟨none, parser.advance⟩ :: rounds parser.advance := by
  rw [rounds_eq, round?_of_semicolon h]

theorem rounds_of_ok {unit : TopLevel} (hend : parser.current.kind ≠ .endOfInput)
    (hsemicolon : parser.current.kind ≠ .character ';')
    (h : parser.topLevel = (.ok unit, rest)) :
    rounds parser = ⟨some (.ok unit), rest⟩ :: rounds rest := by
  rw [rounds_eq, round?_of_unit hend hsemicolon, h]

theorem rounds_of_error {error : SyntaxError} (hend : parser.current.kind ≠ .endOfInput)
    (hsemicolon : parser.current.kind ≠ .character ';')
    (h : parser.topLevel = (.error error, rest)) :
    rounds parser = ⟨some (.error error), rest.advance⟩ :: rounds rest.advance := by
  rw [rounds_eq, round?_of_unit hend hsemicolon, h]

/-!
# Outcomes
-/

theorem outcomes_of_end (h : parser.current.kind = .endOfInput) : outcomes parser = [] := by
  rw [outcomes, rounds_of_end h]
  rfl

theorem outcomes_of_semicolon (h : parser.current.kind = .character ';') :
    outcomes parser = outcomes parser.advance := by
  rw [outcomes, rounds_of_semicolon h]
  rfl

theorem outcomes_of_ok {unit : TopLevel} (hend : parser.current.kind ≠ .endOfInput)
    (hsemicolon : parser.current.kind ≠ .character ';')
    (h : parser.topLevel = (.ok unit, rest)) :
    outcomes parser = .ok unit :: outcomes rest := by
  rw [outcomes, rounds_of_ok hend hsemicolon h]
  rfl

theorem outcomes_of_error {error : SyntaxError} (hend : parser.current.kind ≠ .endOfInput)
    (hsemicolon : parser.current.kind ≠ .character ';')
    (h : parser.topLevel = (.error error, rest)) :
    outcomes parser = .error error :: outcomes rest.advance := by
  rw [outcomes, rounds_of_error hend hsemicolon h]
  rfl

end

theorem outcomes_induction {motive : Parser -> List Outcome -> Prop}
    (atEnd : forall parser : Parser, parser.current.kind = .endOfInput ->
      motive parser [])
    (semicolon : forall parser : Parser, parser.current.kind = .character ';' ->
      motive parser.advance (outcomes parser.advance) ->
      motive parser (outcomes parser.advance))
    (unit : forall (parser : Parser) (unit : TopLevel) (rest : Parser),
      parser.current.kind ≠ .endOfInput -> parser.current.kind ≠ .character ';' ->
      parser.topLevel = (.ok unit, rest) -> motive rest (outcomes rest) ->
      motive parser (.ok unit :: outcomes rest))
    (error : forall (parser : Parser) (error : SyntaxError) (rest : Parser),
      parser.current.kind ≠ .endOfInput -> parser.current.kind ≠ .character ';' ->
      parser.topLevel = (.error error, rest) ->
      motive rest.advance (outcomes rest.advance) ->
      motive parser (.error error :: outcomes rest.advance))
    (parser : Parser) : motive parser (outcomes parser) := by
  refine rounds_induction
    (motive := fun parser found => motive parser (found.filterMap Round.outcome?))
    atEnd ?_ parser
  intro parser round hend hround ih
  cases hround with
  | semicolon hsemicolon => exact semicolon parser hsemicolon ih
  | unit hsemicolon hparsed => exact unit parser _ _ hend hsemicolon hparsed ih
  | error hsemicolon hfailed => exact error parser _ _ hend hsemicolon hfailed ih

end Session
end Kaleidoscope
