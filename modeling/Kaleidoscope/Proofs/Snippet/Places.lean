import Kaleidoscope.Proofs.Scanner.Tokenization
import Kaleidoscope.Proofs.Snippet.Lines

/-!
# Places of offsets

An offset before the end of a text lies on the line around its character.  The end
of a text lies behind the last of the pieces that the text is cut into, and there
is no place beyond it.
-/

namespace Kaleidoscope
namespace Snippet

/-- The line around an offset, from its first character up to behind its last one. -/
structure OnLine (text : List Char) (offset start stop : Nat) : Prop where
  start_le : start ≤ offset
  lt_stop : offset < stop
  stop_le : stop ≤ text.length
  starts : start = 0 ∨ text[start - 1]? = some '\n'
  stops : stop = text.length ∨ text[stop - 1]? = some '\n'
  inside {i : Nat} : start ≤ i -> i + 1 < stop -> text[i]? ≠ some '\n'

/-- What is found at an offset of a text. -/
inductive Located (text : List Char) : Nat -> Option LinePlace -> Prop where
  | inside {offset start stop : Nat} :
      OnLine text offset start stop ->
      Located text offset
        (some ⟨1 + (text.take offset).count '\n', slice text start stop, offset - start⟩)
  | atEnd {others : List (List Char)} {line : List Char} :
      IsCut text (others ++ [line]) ->
      Located text text.length (some ⟨1 + others.length, line, line.length⟩)
  | nothing : text = [] -> Located text 0 (some ⟨1, [], 0⟩)
  | beyond {offset : Nat} : text.length < offset -> Located text offset none

/-!
# Offsets before the end
-/

section

variable {first offset : Nat} {text before after : List Char} {place : LinePlace}
  (h : Lies first text offset before after place)
include h

theorem column_lt_of_lies (hoffset : offset < text.length) :
    place.column < place.line.length := by
  rcases h.stops with ⟨hafter, _⟩ | ⟨body, hline, _, hafter | hcolumn⟩
  · rw [h.text_eq, h.offset_eq, hafter, List.append_nil, List.length_append] at hoffset
    exact Nat.lt_of_add_lt_add_left hoffset
  · rw [h.text_eq, h.offset_eq, hafter, List.append_nil, List.length_append] at hoffset
    exact Nat.lt_of_add_lt_add_left hoffset
  · rw [hline, List.length_append, List.length_singleton]
    exact Nat.lt_succ_of_le hcolumn

theorem lineFeed_not_mem_dropLast : '\n' ∉ place.line.dropLast := by
  intro hmem
  rcases h.stops with ⟨_, hline⟩ | ⟨body, hline, hbody, _⟩
  · exact hline (List.dropLast_subset _ hmem)
  · rw [hline, List.dropLast_concat] at hmem
    exact hbody hmem

theorem drop_before_of_lies : text.drop before.length = place.line ++ after := by
  rw [h.text_eq, List.drop_left]

theorem onLine_of_lies (hoffset : offset < text.length) :
    OnLine text offset before.length (before.length + place.line.length) where
  start_le := by
    rw [h.offset_eq]
    exact Nat.le_add_right _ _
  lt_stop := by
    rw [h.offset_eq]
    exact Nat.add_lt_add_left (column_lt_of_lies h hoffset) _
  stop_le := by
    rw [h.text_eq, List.length_append, List.length_append]
    omega
  starts := by
    rcases h.starts with hnil | ⟨front, hfront⟩
    · exact Or.inl (List.length_eq_zero_iff.mpr hnil)
    · right
      rw [h.text_eq, hfront, List.length_append, List.length_singleton, Nat.add_sub_cancel,
        List.append_assoc, List.getElem?_append_right (Nat.le_refl _), Nat.sub_self]
      rfl
  stops := by
    rcases h.stops with ⟨hafter, _⟩ | ⟨body, hline, _⟩
    · left
      rw [h.text_eq, hafter, List.append_nil, List.length_append]
    · right
      rw [h.text_eq, hline, List.length_append, List.length_singleton, ← Nat.add_assoc,
        Nat.add_sub_cancel, List.getElem?_append_right (Nat.le_add_right _ _),
        Nat.add_sub_cancel_left, List.append_assoc, List.getElem?_append_right (Nat.le_refl _),
        Nat.sub_self]
      rfl
  inside {i} hstart hstop hfeed := by
    have hindex : i - before.length < place.line.length - 1 := by omega
    apply lineFeed_not_mem_dropLast h
    apply List.mem_of_getElem? (i := i - before.length)
    rw [List.getElem?_dropLast, if_pos hindex, ← hfeed, h.text_eq,
      List.getElem?_append_right hstart, List.getElem?_append_left (by omega)]

theorem count_of_lies (hoffset : offset < text.length) :
    (text.take offset).count '\n' = before.count '\n' := by
  have hcolumn := column_lt_of_lies h hoffset
  have hnone : (place.line.take place.column).count '\n' = 0 := by
    apply List.count_eq_zero_of_not_mem
    intro hmem
    apply lineFeed_not_mem_dropLast h
    rw [List.dropLast_eq_take]
    exact List.take_subset_take_left place.line (Nat.le_sub_one_of_lt hcolumn) hmem
  rw [h.text_eq, h.offset_eq, List.take_length_add_append,
    List.take_append_of_le_length h.inside, List.count_append, hnone, Nat.add_zero]

end

theorem located_of_lies {offset : Nat} {text before after : List Char} {place : LinePlace}
    (h : Lies 1 text offset before after place) (hoffset : offset < text.length) :
    Located text offset (some place) := by
  have hplace : place = ⟨1 + (text.take offset).count '\n',
      slice text before.length (before.length + place.line.length),
      offset - before.length⟩ := by
    rw [count_of_lies h hoffset, ← h.number, slice_of_drop_append (drop_before_of_lies h),
      h.offset_eq, Nat.add_sub_cancel_left]
  rw [hplace]
  exact Located.inside (onLine_of_lies h hoffset)

/-!
# The end of a text
-/

theorem flatten_of_isCut {text : List Char} {cut : List (List Char)} (h : IsCut text cut) :
    cut.flatten = text := by
  induction h with
  | nothing => rfl
  | last _ _ => exact List.flatten_singleton
  | line _ _ ih => rw [List.flatten_cons, ih, List.append_assoc, List.singleton_append]

theorem placeIn_last (first : Nat) (others : List (List Char)) (line : List Char) :
    placeIn first (others ++ [line]) (others ++ [line]).flatten.length =
      some ⟨first + others.length, line, line.length⟩ := by
  induction others generalizing first with
  | nil =>
      rw [List.nil_append, List.flatten_singleton, placeIn, if_pos (Nat.le_refl _)]
      rfl
  | cons piece others ih =>
      have hrest : exists next rest, others ++ [line] = next :: rest := by
        cases others with
        | nil => exact ⟨line, [], rfl⟩
        | cons next others => exact ⟨next, others ++ [line], rfl⟩
      have hnext := ih (first + 1)
      rcases hrest with ⟨next, rest, hrest⟩
      rw [hrest] at hnext
      rw [List.cons_append, hrest, List.flatten_cons, List.length_append, placeIn,
        if_neg (Nat.not_lt.mpr (Nat.le_add_right _ _)), Nat.add_sub_cancel_left, hnext,
        List.length_cons, Nat.add_right_comm, Nat.add_assoc]

theorem isSome_placeIn_iff (first : Nat) (cut : List (List Char)) (offset : Nat) :
    (placeIn first cut offset).isSome = true <-> offset ≤ cut.flatten.length := by
  induction cut generalizing first offset with
  | nil =>
      rw [placeIn, List.flatten_nil, List.length_nil, Nat.le_zero]
      by_cases hzero : offset = 0
      · simp [hzero]
      · simp [hzero]
  | cons line rest ih =>
      cases rest with
      | nil =>
          rw [placeIn, List.flatten_singleton]
          by_cases hline : offset ≤ line.length
          · simp [hline]
          · simp [hline]
      | cons next rest =>
          rw [placeIn, List.flatten_cons, List.length_append]
          by_cases hline : offset < line.length
          · rw [if_pos hline]
            exact iff_of_true rfl (Nat.le_add_right_of_le (Nat.le_of_lt hline))
          · rw [if_neg hline, ih, Nat.sub_le_iff_le_add']

theorem isSome_placeAt?_iff (text : List Char) (offset : Nat) :
    (placeAt? text offset).isSome = true <-> offset ≤ text.length := by
  rw [placeAt?, isSome_placeIn_iff, flatten_of_isCut (lines_isCut text)]

theorem located_placeAt? (text : List Char) (offset : Nat) :
    Located text offset (placeAt? text offset) := by
  rcases Nat.lt_trichotomy offset text.length with hless | hend | hbeyond
  · rcases exists_place (Nat.le_of_lt hless) with ⟨before, after, place, hplace, hlies⟩
    rw [hplace]
    exact located_of_lies hlies hless
  · have hcut := lines_isCut text
    rw [hend, placeAt?]
    rcases List.eq_nil_or_concat (lines text) with hnil | ⟨others, line, hlines⟩
    · rw [hnil] at hcut ⊢
      rw [eq_nil_of_isCut hcut]
      exact Located.nothing rfl
    · rw [hlines] at hcut ⊢
      rw [List.concat_eq_append] at hcut ⊢
      have hlast := placeIn_last 1 others line
      rw [flatten_of_isCut hcut] at hlast
      rw [hlast]
      exact Located.atEnd hcut
  · have hnone : placeAt? text offset = none := by
      rw [← Option.not_isSome_iff_eq_none, isSome_placeAt?_iff]
      exact Nat.not_le.mpr hbeyond
    rw [hnone]
    exact Located.beyond hbeyond

theorem getElem?_of_located {text : List Char} {offset : Nat} {found : Option LinePlace}
    (h : Located text offset found) :
    (found.bind fun place => place.line[place.column]?) = text[offset]? := by
  cases h with
  | @inside offset start stop hline =>
      have hcolumn : offset - start < stop - start :=
        Nat.sub_lt_sub_right hline.start_le hline.lt_stop
      show (slice text start stop)[offset - start]? = text[offset]?
      rw [slice, List.getElem?_take_of_lt hcolumn, List.getElem?_drop,
        Nat.add_sub_cancel' hline.start_le]
  | @atEnd others last _ =>
      show last[last.length]? = text[text.length]?
      rw [List.getElem?_eq_none (Nat.le_refl _), List.getElem?_eq_none (Nat.le_refl _)]
  | nothing hnil =>
      rw [hnil]
      rfl
  | beyond hbeyond => exact (List.getElem?_eq_none (Nat.le_of_lt hbeyond)).symm

/--
Every offset up to the end of a text has a place, on the line around it or at the end
of the last piece, and no other offset has one.
-/
theorem placeAt?_exact (text : List Char) (offset : Nat) :
    ((placeAt? text offset).isSome = true <-> offset ≤ text.length) ∧
      Located text offset (placeAt? text offset) ∧
      ((placeAt? text offset).bind fun place => place.line[place.column]?) = text[offset]? :=
  ⟨isSome_placeAt?_iff text offset, located_placeAt? text offset,
    getElem?_of_located (located_placeAt? text offset)⟩

-- The line feed that ends a text belongs to its last line.
example : placeAt? "a\n\nb\n".toList 5 = some ⟨3, "b\n".toList, 2⟩ := by
  decide

end Snippet
end Kaleidoscope
