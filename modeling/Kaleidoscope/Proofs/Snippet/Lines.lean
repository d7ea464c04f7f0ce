import Kaleidoscope.Snippet

/-!
# Lines and places

A text is cut behind its line feeds, so a line holds none but at its end.  Every
offset up to the end of a text has a place on a line, with whole lines before it
and after it.
-/

namespace Kaleidoscope
namespace Snippet

/-!
# The lines of a text
-/

/-- The text is cut into lines; only the last one may lack a line feed. -/
inductive IsCut : List Char -> List (List Char) -> Prop where
  | nothing : IsCut [] []
  | last {body : List Char} :
      body ≠ [] -> '\n' ∉ body -> IsCut body [body]
  | line {body text : List Char} {others : List (List Char)} :
      '\n' ∉ body -> IsCut text others ->
      IsCut (body ++ '\n' :: text) ((body ++ ['\n']) :: others)

theorem isCut_cons {c : Char} {text line : List Char} {others : List (List Char)}
    (hc : c ≠ '\n') (h : IsCut text (line :: others)) :
    IsCut (c :: text) ((c :: line) :: others) := by
  cases h with
  | last _ hbody =>
      exact IsCut.last (List.cons_ne_nil c _)
        (List.not_mem_cons_of_ne_of_not_mem hc.symm hbody)
  | line hbody htext =>
      exact IsCut.line (List.not_mem_cons_of_ne_of_not_mem hc.symm hbody) htext

theorem lines_isCut (text : List Char) : IsCut text (lines text) := by
  induction text with
  | nil => exact IsCut.nothing
  | cons c text ih =>
      unfold lines
      by_cases hc : c = '\n'
      · rw [if_pos hc, hc]
        exact IsCut.line (List.not_mem_nil : '\n' ∉ []) ih
      · rw [if_neg hc]
        cases hlines : lines text with
        | nil =>
            rw [hlines] at ih
            cases ih
            exact IsCut.last (List.cons_ne_nil c [])
              (List.not_mem_cons_of_ne_of_not_mem (Ne.symm hc) List.not_mem_nil)
        | cons line others =>
            rw [hlines] at ih
            exact isCut_cons hc ih

theorem eq_nil_of_isCut {text : List Char} (h : IsCut text []) : text = [] := by
  cases h
  rfl

/-!
# Places
-/

/-- A place, where lines are counted from a number on, between other lines. -/
structure Lies (first : Nat) (text : List Char) (offset : Nat)
    (before after : List Char) (place : LinePlace) : Prop where
  text_eq : text = before ++ (place.line ++ after)
  offset_eq : offset = before.length + place.column
  inside : place.column ≤ place.line.length
  number : place.number = first + before.count '\n'
  starts : before = [] ∨ exists front, before = front ++ ['\n']
  stops :
    (after = [] ∧ '\n' ∉ place.line) ∨
      exists body, place.line = body ++ ['\n'] ∧ '\n' ∉ body ∧
        (after = [] ∨ place.column ≤ body.length)

theorem lies_on_line {text body : List Char} {offset : Nat} (first : Nat)
    (hbody : '\n' ∉ body)
    (h : (text = [] ∧ offset ≤ body.length + 1) ∨ offset ≤ body.length) :
    Lies first (body ++ '\n' :: text) offset [] text ⟨first, body ++ ['\n'], offset⟩ where
  text_eq := by rw [List.append_assoc]; rfl
  offset_eq := (Nat.zero_add offset).symm
  inside := by
    show offset ≤ (body ++ ['\n']).length
    rw [List.length_append, List.length_singleton]
    omega
  number := rfl
  starts := Or.inl rfl
  stops := Or.inr ⟨body, rfl, hbody, h.imp_left And.left⟩

theorem lies_after_line {first : Nat} {text body before after : List Char} {offset : Nat}
    {place : LinePlace} (hbody : '\n' ∉ body)
    (h : Lies (first + 1) text offset before after place) :
    Lies first (body ++ '\n' :: text) (body.length + 1 + offset)
      (body ++ '\n' :: before) after place where
  text_eq := by rw [h.text_eq, List.append_assoc, List.cons_append]
  offset_eq := by
    rw [h.offset_eq, List.length_append, List.length_cons]
    omega
  inside := h.inside
  number := by
    rw [h.number, List.count_append, List.count_cons_self, List.count_eq_zero_of_not_mem hbody]
    omega
  starts := by
    right
    rcases h.starts with hnil | ⟨front, hfront⟩
    · exact ⟨body, by rw [hnil]⟩
    · refine ⟨body ++ '\n' :: front, ?_⟩
      rw [hfront, List.append_assoc, List.cons_append]
  stops := h.stops

theorem exists_placeIn {text : List Char} {cut : List (List Char)} (h : IsCut text cut)
    {offset : Nat} (hoffset : offset ≤ text.length) (first : Nat) :
    exists before after place,
      placeIn first cut offset = some place ∧ Lies first text offset before after place := by
  induction h generalizing offset first with
  | nothing =>
      have hzero : offset = 0 := Nat.le_zero.mp hoffset
      refine ⟨[], [], ⟨first, [], 0⟩, by rw [placeIn, if_pos hzero], ?_⟩
      exact ⟨rfl, hzero, Nat.le_refl 0, rfl, Or.inl rfl, Or.inl ⟨rfl, List.not_mem_nil⟩⟩
  | @last body _ hbody =>
      refine ⟨[], [], ⟨first, body, offset⟩, by rw [placeIn, if_pos hoffset], ?_⟩
      exact ⟨by rw [List.append_nil]; rfl, (Nat.zero_add offset).symm, hoffset, rfl, Or.inl rfl,
        Or.inl ⟨rfl, hbody⟩⟩
  | @line body text others hbody hothers ih =>
      have hlength : (body ++ ['\n']).length = body.length + 1 := List.length_append
      cases others with
      | nil =>
          have htext := eq_nil_of_isCut hothers
          rw [htext, List.length_append] at hoffset
          refine ⟨[], text, _, ?_, lies_on_line first hbody (Or.inl ⟨htext, hoffset⟩)⟩
          rw [placeIn, if_pos (by rw [hlength]; exact hoffset)]
      | cons next others =>
          rw [List.length_append, List.length_cons] at hoffset
          by_cases hcolumn : offset ≤ body.length
          · refine ⟨[], text, _, ?_, lies_on_line first hbody (Or.inr hcolumn)⟩
            rw [placeIn, if_pos (by rw [hlength]; omega)]
          · have hrest : offset - (body.length + 1) ≤ text.length := by omega
            rcases ih hrest (first + 1) with ⟨before, after, place, hplace, hlies⟩
            have hlater := lies_after_line hbody hlies
            rw [Nat.add_sub_cancel' (by omega)] at hlater
            refine ⟨_, after, place, ?_, hlater⟩
            rw [placeIn, if_neg (by rw [hlength]; omega), hlength]
            exact hplace

/-- Every offset up to the end of a text has a place. -/
theorem exists_place {text : List Char} {offset : Nat} (h : offset ≤ text.length) :
    exists before after place,
      placeAt? text offset = some place ∧ Lies 1 text offset before after place :=
  exists_placeIn (lines_isCut text) h 1

section

variable {first offset : Nat} {text before after : List Char} {place : LinePlace}
  (h : Lies first text offset before after place)
include h

theorem drop_of_lies : text.drop offset = place.line.drop place.column ++ after := by
  rw [h.text_eq, h.offset_eq, ← List.drop_drop, List.drop_left,
    List.drop_append_of_le_length h.inside]

theorem prefix_of_lies {piece following : List Char} (hpiece : '\n' ∉ piece)
    (hdrop : text.drop offset = piece ++ following) :
    piece <+: place.line.drop place.column := by
  have hsplit := (drop_of_lies h).symm.trans hdrop
  rcases h.stops with ⟨hafter, _⟩ | ⟨body, hline, _, hafter | hcolumn⟩
  · rw [hafter, List.append_nil] at hsplit
    exact ⟨following, hsplit.symm⟩
  · rw [hafter, List.append_nil] at hsplit
    exact ⟨following, hsplit.symm⟩
  · rw [hline, List.drop_append_of_le_length hcolumn] at hsplit ⊢
    rw [List.append_assoc] at hsplit
    rcases List.append_eq_append_iff.mp hsplit with ⟨rest, hrest, hfeed⟩ | ⟨rest, hrest, _⟩
    · -- The piece would go on behind the end of the line.
      cases rest with
      | nil =>
          rw [List.append_nil] at hrest
          rw [hrest]
          exact List.prefix_append _ _
      | cons c rest =>
          injection hfeed with hc _
          apply absurd _ hpiece
          rw [hrest, ← hc]
          exact List.mem_append_right _ List.mem_cons_self
    · rw [hrest, List.append_assoc]
      exact List.prefix_append _ _

theorem column_of_end (hend : offset = text.length) : place.column = place.line.length := by
  have hdrop := drop_of_lies h
  rw [hend, List.drop_length] at hdrop
  have hnil := (List.append_eq_nil_iff.mp hdrop.symm).left
  exact Nat.le_antisymm h.inside (List.drop_eq_nil_iff.mp hnil)

end

end Snippet
end Kaleidoscope
