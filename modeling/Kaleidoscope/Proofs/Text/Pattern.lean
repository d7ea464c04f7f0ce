import Mathlib.Data.List.TakeWhile

/-!
# Patterns

A search finds the earliest place at which a pattern matches.  Where it can
match there in several ways, it takes the one that a backtracking search would
come to first: the first alternative before the second, and more repetitions
before fewer.  That need not be the longest match.
-/

namespace Kaleidoscope

inductive Pattern where
  /-- Nothing, but only at the start of the whole text. -/
  | start
  | one (accepts : Char -> Bool)
  /-- One character or more, rather more than fewer. -/
  | many (accepts : Char -> Bool)
  /-- The body or nothing, rather the body. -/
  | optional (body : Pattern)
  | followed (first second : Pattern)
  /-- One of two patterns, rather the first. -/
  | either (first second : Pattern)

namespace Pattern

structure Way where
  taken : List Char
  left : List Char

def Way.after (taken : List Char) (way : Way) : Way :=
  ⟨taken ++ way.taken, way.left⟩

def runs (accepts : Char -> Bool) : List Char -> List Way
  | [] => []
  | c :: text =>
      if accepts c then
        (runs accepts text).map (Way.after [c]) ++ [⟨[c], text⟩]
      else
        []

/-- The ways to match at one place, in the order in which they are tried. -/
def ways : Pattern -> Bool -> List Char -> List Way
  | start, atStart, text => if atStart then [⟨[], text⟩] else []
  | one _, _, [] => []
  | one accepts, _, c :: text => if accepts c then [⟨[c], text⟩] else []
  | many accepts, _, text => runs accepts text
  | optional body, atStart, text => body.ways atStart text ++ [⟨[], text⟩]
  | followed first second, atStart, text =>
      (first.ways atStart text).flatMap fun way =>
        (second.ways (atStart && way.taken.isEmpty) way.left).map (Way.after way.taken)
  | either first second, atStart, text =>
      first.ways atStart text ++ second.ways atStart text

def first? (pattern : Pattern) (atStart : Bool) (text : List Char) : Option Way :=
  (pattern.ways atStart text).head?

def search (pattern : Pattern) : Bool -> List Char -> Option (List Char)
  | atStart, [] => (pattern.first? atStart []).map Way.taken
  | atStart, c :: rest =>
      ((pattern.first? atStart (c :: rest)).map Way.taken).or (pattern.search false rest)

/-- A function that finds what the search for a pattern finds. -/
def LeftmostFirst (pattern : Pattern) (find? : List Char -> Option (List Char)) : Prop :=
  forall text, find? text = pattern.search true text

/-!
# Preferred ways
-/

variable (accepts : Char -> Bool) (first second body : Pattern) (atStart : Bool)
  (text : List Char)

/-- The longest run is preferred. -/
theorem first?_many :
    (many accepts).first? atStart text =
      if text.takeWhile accepts = [] then none
      else some ⟨text.takeWhile accepts, text.dropWhile accepts⟩ := by
  unfold first? ways
  induction text with
  | nil => rfl
  | cons c text ih =>
      by_cases hc : accepts c = true
      · rw [runs, if_pos hc, List.head?_append, List.head?_map, ih,
          List.takeWhile_cons_of_pos hc, List.dropWhile_cons_of_pos hc,
          if_neg (List.cons_ne_nil _ _)]
        by_cases hrun : text.takeWhile accepts = []
        · have hleft : text.dropWhile accepts = text := by
            have hsum : text.takeWhile accepts ++ text.dropWhile accepts = text :=
              List.takeWhile_append_dropWhile
            rw [hrun] at hsum
            exact hsum
          rw [if_pos hrun, hrun, hleft]
          rfl
        · rw [if_neg hrun]
          rfl
      · rw [runs, if_neg hc, List.takeWhile_cons_of_neg hc, if_pos rfl]
        rfl

theorem first?_optional :
    (optional body).first? atStart text =
      some ((body.first? atStart text).getD ⟨[], text⟩) := by
  rw [first?, ways, List.head?_append]
  show (body.first? atStart text).or _ = _
  cases body.first? atStart text <;> rfl

theorem first?_either :
    (either first second).first? atStart text =
      (first.first? atStart text).or (second.first? atStart text) := by
  rw [first?, ways, List.head?_append]
  rfl

theorem first?_followed_none (h : first.first? atStart text = none) :
    (followed first second).first? atStart text = none := by
  have hnil : first.ways atStart text = [] := List.head?_eq_none_iff.mp h
  rw [first?, ways, hnil]
  rfl

/-- If the second pattern matches after the preferred way of the first, no other is tried. -/
theorem first?_followed_some {way next : Way} (h : first.first? atStart text = some way)
    (hnext : second.first? (atStart && way.taken.isEmpty) way.left = some next) :
    (followed first second).first? atStart text = some (next.after way.taken) := by
  obtain ⟨others, hways⟩ : exists others, first.ways atStart text = way :: others :=
    List.head?_eq_some_iff.mp h
  have hhead : (second.ways (atStart && way.taken.isEmpty) way.left).head? = some next :=
    hnext
  rw [first?, ways, hways, List.flatMap_cons, List.head?_append, List.head?_map, hhead]
  rfl

theorem taken_followed_optional {way : Way} (h : first.first? atStart text = some way) :
    ((followed first (optional body)).first? atStart text).map Way.taken =
      some (way.taken ++
        ((body.first? (atStart && way.taken.isEmpty) way.left).map Way.taken).getD []) := by
  rw [first?_followed_some _ _ _ _ h (first?_optional _ _ _)]
  cases body.first? (atStart && way.taken.isEmpty) way.left <;> rfl

theorem first?_followed_one (c : Char) :
    (followed (one accepts) second).first? atStart (c :: text) =
      if accepts c then (second.first? false text).map (Way.after [c]) else none := by
  rw [first?, ways, ways]
  by_cases hc : accepts c = true
  · rw [if_pos hc, if_pos hc, List.flatMap_singleton, List.head?_map]
    show (second.first? (atStart && false) text).map _ = _
    rw [Bool.and_false]
  · rw [if_neg hc, if_neg hc]
    rfl

theorem search_followed_start :
    (followed start body).search true text = (body.first? true text).map Way.taken := by
  have hfirst : (followed start body).first? true text = body.first? true text := by
    rw [first?, ways, ways, if_pos rfl, List.flatMap_singleton, List.head?_map]
    show (body.first? true text).map _ = _
    cases body.first? true text <;> rfl
  have hlater : forall rest, (followed start body).search false rest = none := by
    intro rest
    induction rest with
    | nil => rw [search, first?_followed_none start body false [] rfl, Option.map_none]
    | cons c rest ih =>
        rw [search, first?_followed_none start body false (c :: rest) rfl, ih]
        rfl
  cases text with
  | nil => rw [search, hfirst]
  | cons c rest => rw [search, hfirst, hlater, Option.or_none]

end Pattern
end Kaleidoscope
