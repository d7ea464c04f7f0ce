import Kaleidoscope.Proofs.Grammar.Acceptance
import Kaleidoscope.Proofs.Session.Resynchronisation

/-!
# Segments of a text

A session cuts the tokens of a text into segments, one for each of its rounds.
A segment is a semicolon, or the tokens of a unit, or a failed attempt together
with the token that is dropped after it.  So no token before the end of the
input is passed over and none is used twice.
-/

namespace Kaleidoscope

inductive Segment where
  | semicolon (token : Token)
  | unit (used : List Token) (value : TopLevel)
  | dropped (used : List Token) (kind : SyntaxError.Kind) (offending : Token)
  | unfinished (used : List Token) (kind : SyntaxError.Kind) (last : Token)

namespace Segment

def tokens : Segment -> List Token
  | .semicolon token => [token]
  | .unit used _ => used
  | .dropped used _ offending => used ++ [offending]
  | .unfinished used _ _ => used

def errorAt (kind : SyntaxError.Kind) (token : Token) : SyntaxError :=
  ⟨kind, token.lexeme, token.span.start⟩

def outcome? : Segment -> Option Outcome
  | .semicolon _ => none
  | .unit _ value => some (.ok value)
  | .dropped _ kind offending => some (.error (errorAt kind offending))
  | .unfinished _ kind last => some (.error (errorAt kind last))

def isUnfinished : Segment -> Bool
  | .unfinished _ _ _ => true
  | _ => false

/-- The segment that the round beginning with a parser uses. -/
inductive OfRound (parser : Parser) : Segment -> Session.Round -> Prop where
  | semicolon :
      parser.current.kind = .character ';' ->
      OfRound parser (.semicolon parser.current) ⟨none, parser.advance⟩
  | unit {used : List Token} {value : TopLevel} {rest : Parser} :
      parser.topLevel = (.ok value, rest) ->
      parser.Consumes used rest ->
      Derives parser.operators (used.map Token.kind) (.unit value) ->
      OfRound parser (.unit used value) ⟨some (.ok value), rest⟩
  | dropped {used : List Token} {kind : SyntaxError.Kind} {rest : Parser} :
      parser.topLevel = (.error (rest.errorHere kind), rest) ->
      parser.Consumes used rest ->
      rest.current.kind ≠ .endOfInput ->
      OfRound parser (.dropped used kind rest.current)
        ⟨some (.error (rest.errorHere kind)), rest.advance⟩
  | unfinished {used : List Token} {kind : SyntaxError.Kind} {rest : Parser} :
      parser.topLevel = (.error (rest.errorHere kind), rest) ->
      parser.Consumes used rest ->
      rest.current.kind = .endOfInput ->
      OfRound parser (.unfinished used kind rest.current)
        ⟨some (.error (rest.errorHere kind)), rest.advance⟩

end Segment

/-- One segment for each round, each beginning where the one before it ends. -/
inductive Accounts : Parser -> List Segment -> List Session.Round -> Prop where
  | atEnd {parser : Parser} :
      parser.current.kind = .endOfInput -> Accounts parser [] []
  | round {parser : Parser} {segment : Segment} {round : Session.Round}
      {segments : List Segment} {rounds : List Session.Round} :
      parser.current.kind ≠ .endOfInput ->
      segment.OfRound parser round ->
      Accounts round.next segments rounds ->
      Accounts parser (segment :: segments) (round :: rounds)

def beforeEnd (tokens : List Token) : List Token :=
  tokens.filter fun token => !token.isEnd

/-!
# Tokens before the end
-/

namespace Parser

theorem beforeEnd_of_end {parser : Parser}
    (h : parser.current.kind = .endOfInput) : beforeEnd parser.tokens = [] := by
  have hend := isEnd_of_kind h
  rw [tokens_of_isEnd hend, beforeEnd, List.filter_cons_of_neg (by simp [hend])]
  rfl

theorem beforeEnd_of_advance {parser : Parser}
    (h : parser.current.kind ≠ .endOfInput) :
    beforeEnd parser.tokens = parser.current :: beforeEnd parser.advance.tokens := by
  have hend := not_isEnd_of_kind h
  rw [tokens_of_not_isEnd hend, beforeEnd, List.filter_cons_of_pos (by simp [hend])]
  rfl

theorem beforeEnd_of_consumes {parser rest : Parser} {used : List Token}
    (h : parser.Consumes used rest) :
    beforeEnd parser.tokens = used ++ beforeEnd rest.tokens := by
  have hused : used.filter (fun token => !token.isEnd) = used := by
    apply List.filter_eq_self.mpr
    intro token htoken
    have hne := reads_ne_endOfInput h.reads (List.mem_map_of_mem htoken)
    simpa [Token.isEnd] using hne
  rw [h.tokens, beforeEnd, List.filter_append, hused]
  rfl

end Parser

/-!
# One round
-/

namespace Segment

variable {parser : Parser} {segment : Segment} {round : Session.Round}

theorem exists_ofRound_error {rest : Parser} {error : SyntaxError}
    (h : parser.topLevel = (.error error, rest)) :
    exists segment : Segment,
      segment.OfRound parser ⟨some (.error error), rest.advance⟩ := by
  rcases Parser.topLevel_error h with ⟨kind, herror⟩
  rcases Parser.reaches_of_topLevel h with ⟨kinds, hreads⟩
  rcases Parser.consumes_of_reads hreads with ⟨used, _, hconsumes⟩
  rw [herror] at h ⊢
  by_cases hend : rest.current.kind = .endOfInput
  · exact ⟨_, OfRound.unfinished h hconsumes hend⟩
  · exact ⟨_, OfRound.dropped h hconsumes hend⟩

theorem exists_ofRound (h : Session.RoundOf parser round) :
    exists segment : Segment, segment.OfRound parser round := by
  cases h with
  | semicolon hkind => exact ⟨_, OfRound.semicolon hkind⟩
  | unit _ hparsed =>
      rcases Parser.admits_of_topLevel hparsed with ⟨used, hconsumes, hadmits⟩
      rcases hadmits with ⟨_, _, _, hderives, _⟩
      exact ⟨_, OfRound.unit hparsed hconsumes hderives⟩
  | error _ hfailed => exact exists_ofRound_error hfailed

theorem ofRound_outcome? (h : segment.OfRound parser round) :
    segment.outcome? = round.outcome? := by
  cases h with
  | semicolon _ => rfl
  | unit _ _ _ => rfl
  | dropped _ _ _ => rfl
  | unfinished _ _ _ => rfl

theorem ofRound_next_of_isUnfinished (hlasting : parser.Lasting)
    (h : segment.OfRound parser round) (hunfinished : segment.isUnfinished = true) :
    round.next.current.kind = .endOfInput := by
  cases h with
  | semicolon _ => cases hunfinished
  | unit _ _ _ => cases hunfinished
  | dropped _ _ _ => cases hunfinished
  | unfinished hfailed _ hend =>
      have hreaches := Parser.reaches_of_topLevel hfailed
      exact Parser.advance_current_of_end (Parser.reaches_lasting hreaches hlasting) hend

theorem ofRound_lasting (hlasting : parser.Lasting) (h : segment.OfRound parser round) :
    round.next.Lasting := by
  cases h with
  | semicolon _ => exact Parser.advance_lasting parser
  | unit hparsed _ _ =>
      exact Parser.reaches_lasting (Parser.reaches_of_topLevel hparsed) hlasting
  | dropped _ _ _ => exact Parser.advance_lasting _
  | unfinished _ _ _ => exact Parser.advance_lasting _

theorem ofRound_operators (h : segment.OfRound parser round) :
    round.next.operators = parser.operators := by
  cases h with
  | semicolon _ => rfl
  | unit hparsed _ _ =>
      exact Parser.reaches_operators (Parser.reaches_of_topLevel hparsed)
  | dropped hfailed _ _ | unfinished hfailed _ _ =>
      have hsame := Parser.reaches_operators (Parser.reaches_of_topLevel hfailed)
      exact hsame

/-- A segment is what a round takes away from the tokens before the end. -/
theorem ofRound_tokens (hlasting : parser.Lasting) (h : segment.OfRound parser round) :
    beforeEnd parser.tokens = segment.tokens ++ beforeEnd round.next.tokens := by
  have hnext := ofRound_next_of_isUnfinished hlasting h
  cases h with
  | semicolon hkind =>
      exact Parser.beforeEnd_of_advance (by rw [hkind]; exact nofun)
  | unit _ hconsumes _ => exact Parser.beforeEnd_of_consumes hconsumes
  | @dropped used kind rest _ hconsumes hend =>
      rw [Parser.beforeEnd_of_consumes hconsumes, Parser.beforeEnd_of_advance hend,
        tokens, List.append_assoc, List.singleton_append]
  | unfinished _ hconsumes hend =>
      rw [Parser.beforeEnd_of_consumes hconsumes, Parser.beforeEnd_of_end hend,
        Parser.beforeEnd_of_end (hnext rfl)]
      rfl

theorem ofRound_tokens_ne_nil (hend : parser.current.kind ≠ .endOfInput)
    (h : segment.OfRound parser round) : segment.tokens ≠ [] := by
  intro hnil
  cases h with
  | semicolon _ => cases hnil
  | unit _ _ hderives =>
      rcases derives_unit_begins hderives with ⟨first, others, hcons, _⟩
      rw [tokens] at hnil
      rw [hnil] at hcons
      cases hcons
  | dropped _ _ _ => exact List.append_ne_nil_of_right_ne_nil _ (by simp) hnil
  | unfinished _ hconsumes hlast =>
      have hreads := hconsumes.reads
      rw [tokens] at hnil
      rw [hnil] at hreads
      rw [← Parser.reads_nil_inv hreads] at hlast
      exact hend hlast

end Segment

/-!
# All rounds
-/

theorem exists_accounts (parser : Parser) :
    exists segments, Accounts parser segments (Session.rounds parser) := by
  refine Session.rounds_induction
    (motive := fun parser rounds => exists segments, Accounts parser segments rounds)
    ?_ ?_ parser
  · intro parser hend
    exact ⟨[], Accounts.atEnd hend⟩
  · intro parser round hend hround ih
    rcases Segment.exists_ofRound hround with ⟨segment, hsegment⟩
    rcases ih with ⟨segments, hsegments⟩
    exact ⟨segment :: segments, Accounts.round hend hsegment hsegments⟩

section

variable {parser : Parser} {segments : List Segment} {rounds : List Session.Round}

theorem accounts_outcome? (h : Accounts parser segments rounds) :
    segments.map Segment.outcome? = rounds.map Session.Round.outcome? := by
  induction h with
  | atEnd _ => rfl
  | round _ hsegment _ ih =>
      rw [List.map_cons, List.map_cons, ih, Segment.ofRound_outcome? hsegment]

theorem accounts_tokens (hlasting : parser.Lasting)
    (h : Accounts parser segments rounds) :
    beforeEnd parser.tokens = segments.flatMap Segment.tokens := by
  induction h with
  | atEnd hend => exact Parser.beforeEnd_of_end hend
  | round _ hsegment _ ih =>
      rw [Segment.ofRound_tokens hlasting hsegment,
        ih (Segment.ofRound_lasting hlasting hsegment), List.flatMap_cons]

theorem accounts_derives {operators : Operators} (hoperators : parser.operators = operators)
    (h : Accounts parser segments rounds) {used : List Token} {value : TopLevel}
    (hmem : Segment.unit used value ∈ segments) :
    Derives operators (used.map Token.kind) (.unit value) := by
  induction h with
  | atEnd _ => cases hmem
  | round _ hsegment _ ih =>
      have hnext := (Segment.ofRound_operators hsegment).trans hoperators
      rcases List.mem_cons.mp hmem with hsame | hmem
      · cases hsegment with
        | unit _ _ hderives =>
            cases hsame
            rw [← hoperators]
            exact hderives
        | semicolon _ | dropped _ _ _ | unfinished _ _ _ => cases hsame
      · exact ih hnext hmem

theorem accounts_tokens_ne_nil (h : Accounts parser segments rounds)
    {segment : Segment} (hmem : segment ∈ segments) : segment.tokens ≠ [] := by
  induction h with
  | atEnd _ => cases hmem
  | round hend hsegment _ ih =>
      rcases List.mem_cons.mp hmem with hsame | hmem
      · rw [hsame]
        exact Segment.ofRound_tokens_ne_nil hend hsegment
      · exact ih hmem

theorem accounts_of_end (hend : parser.current.kind = .endOfInput)
    (h : Accounts parser segments rounds) : segments = [] := by
  cases h with
  | atEnd _ => rfl
  | round hne _ _ => exact absurd hend hne

theorem accounts_isUnfinished (hlasting : parser.Lasting)
    (h : Accounts parser segments rounds) {segment : Segment}
    (hmem : segment ∈ segments.dropLast) : segment.isUnfinished = false := by
  induction h with
  | atEnd _ => cases hmem
  | @round parser first round segments rounds _ hsegment hrest ih =>
      rcases Session.mem_dropLast_cons hmem with ⟨hne, hsame | hmem⟩
      · cases hunfinished : segment.isUnfinished with
        | false => rfl
        | true =>
            rw [hsame] at hunfinished
            have hend := Segment.ofRound_next_of_isUnfinished hlasting hsegment hunfinished
            exact absurd (accounts_of_end hend hrest) hne
      · exact ih (Segment.ofRound_lasting hlasting hsegment) hmem

end

theorem length_le_flatMap {segments : List Segment}
    (h : forall segment, segment ∈ segments -> segment.tokens ≠ []) :
    segments.length ≤ (segments.flatMap Segment.tokens).length := by
  induction segments with
  | nil => exact Nat.le_refl _
  | cons segment segments ih =>
      have hfirst := List.length_pos_iff.mpr (h segment List.mem_cons_self)
      have hrest := ih fun other hmem => h other (List.mem_cons_of_mem segment hmem)
      rw [List.flatMap_cons, List.length_append, List.length_cons]
      omega

/--
The tokens of a text before its end are those of non-empty segments, one for each
round of the session over the text, in order.  The outcomes are those of the
segments, only the last segment can be an attempt that the end of the input cut
short, and there are no more rounds than tokens.
-/
theorem parseSource_segments (text : String) :
    exists segments : List Segment,
      Accounts (Parser.ofText text) segments (Session.rounds (Parser.ofText text)) ∧
      beforeEnd (tokenize text Scanner.unnamed) = segments.flatMap Segment.tokens ∧
      (forall segment, segment ∈ segments -> segment.tokens ≠ []) ∧
      (forall used value, Segment.unit used value ∈ segments ->
        Derives .standard (used.map Token.kind) (.unit value)) ∧
      (forall segment, segment ∈ segments.dropLast -> segment.isUnfinished = false) ∧
      parseSource text = segments.filterMap Segment.outcome? ∧
      segments.length = (Session.rounds (Parser.ofText text)).length ∧
      segments.length ≤ (beforeEnd (tokenize text Scanner.unnamed)).length := by
  rcases exists_accounts (Parser.ofText text) with ⟨segments, haccounts⟩
  have hlasting : (Parser.ofText text).Lasting := Parser.start_lasting _
  have htokens := accounts_tokens hlasting haccounts
  have houtcomes := accounts_outcome? haccounts
  rw [Parser.ofText_tokens] at htokens
  refine ⟨segments, haccounts, htokens,
    fun segment => accounts_tokens_ne_nil haccounts,
    fun used value => accounts_derives rfl haccounts,
    fun segment => accounts_isUnfinished hlasting haccounts, ?_, ?_, ?_⟩
  · have hflat := congrArg (List.filterMap id) houtcomes
    rw [List.filterMap_map, List.filterMap_map] at hflat
    exact hflat.symm
  · have hlength := congrArg List.length houtcomes
    rw [List.length_map, List.length_map] at hlength
    exact hlength
  · rw [htokens]
    exact length_le_flatMap fun segment => accounts_tokens_ne_nil haccounts

end Kaleidoscope
