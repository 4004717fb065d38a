/-!
# Separated texts

A text cut at every occurrence of a separator, and parts put together again. `join_split` says that
cutting loses nothing, and `split_join` that it finds the parts that were joined. `span_append`,
`span_append_of_stop` and `append_inj_of_stop` are about the front of a text that a predicate marks
off.
-/

namespace StyleProps.Text

/-- Puts characters in front of the first part of a list of parts. -/
def onFirst (chars : List Char) : List (List Char) → List (List Char)
  | [] => [chars]
  | part :: rest => (chars ++ part) :: rest

/-- The parts of a text between occurrences of a separator. There is one part more than there are
separators. -/
def split (separator : Char) : List Char → List (List Char)
  | [] => [[]]
  | c :: rest =>
      if c = separator then [] :: split separator rest else onFirst [c] (split separator rest)

/-- The parts, with a separator between any two. -/
def join (separator : Char) : List (List Char) → List Char
  | [] => []
  | [part] => part
  | part :: rest => part ++ separator :: join separator rest

/-- The texts before and after the first occurrence of a separator. -/
def cut? (separator : Char) : List Char → Option (List Char × List Char)
  | [] => none
  | c :: rest =>
      if c = separator then some ([], rest)
      else (cut? separator rest).map fun (before, after) => (c :: before, after)

/-- The text after the last occurrence of a separator. -/
def afterLast? (separator : Char) : List Char → Option (List Char)
  | [] => none
  | c :: rest =>
      match afterLast? separator rest with
      | some after => some after
      | none => if c = separator then some rest else none

/-- A text is cut at the separator after a text without one. -/
theorem cut?_append {separator : Char} {front : List Char} (h : separator ∉ front)
    (rest : List Char) : cut? separator (front ++ separator :: rest) = some (front, rest) := by
  induction front with
  | nil => simp [cut?]
  | cons c front ih =>
      simp only [List.mem_cons, not_or] at h
      rw [List.cons_append, cut?, if_neg (Ne.symm h.1), ih h.2]
      rfl

/-- A text is cut nowhere else. -/
theorem cut?_eq_some_iff {separator : Char} {text before after : List Char} :
    cut? separator text = some (before, after) ↔
      separator ∉ before ∧ text = before ++ separator :: after := by
  constructor
  · intro h
    induction text generalizing before with
    | nil => cases h
    | cons c rest ih =>
        rw [cut?] at h
        split at h
        · next heq =>
            obtain ⟨rfl, rfl⟩ := Prod.mk.inj (Option.some.inj h)
            exact ⟨List.not_mem_nil, by rw [heq, List.nil_append]⟩
        · next hne =>
            obtain ⟨⟨front, back⟩, hcut, hparts⟩ := Option.map_eq_some_iff.mp h
            obtain ⟨rfl, rfl⟩ := Prod.mk.inj hparts
            obtain ⟨hfront, rfl⟩ := ih hcut
            exact ⟨List.not_mem_cons_of_ne_of_not_mem (Ne.symm hne) hfront, rfl⟩
  · rintro ⟨hbefore, rfl⟩
    exact cut?_append hbefore after

/-- There is always a first part. -/
theorem split_ne_nil (separator : Char) (text : List Char) : split separator text ≠ [] := by
  cases text with
  | nil => simp [split]
  | cons c rest =>
      unfold split
      split
      · simp
      · cases split separator rest <;> simp [onFirst]

/-- Characters put in front of the first part stand in front of the joined text. -/
theorem join_onFirst (separator : Char) (chars : List Char) {parts : List (List Char)}
    (h : parts ≠ []) : join separator (onFirst chars parts) = chars ++ join separator parts := by
  match parts, h with
  | [part], _ => rfl
  | part :: other :: rest, _ => simp [onFirst, join]

/-- An empty part put in front adds a separator in front. -/
theorem join_nil_cons (separator : Char) {parts : List (List Char)} (h : parts ≠ []) :
    join separator ([] :: parts) = separator :: join separator parts := by
  match parts, h with
  | part :: rest, _ => rfl

/-- Joining the parts of a text gives the text back. -/
theorem join_split (separator : Char) (text : List Char) :
    join separator (split separator text) = text := by
  induction text with
  | nil => rfl
  | cons c rest ih =>
      unfold split
      split
      · next h => rw [join_nil_cons separator (split_ne_nil separator rest), ih, h]
      · rw [join_onFirst separator [c] (split_ne_nil separator rest), ih, List.singleton_append]

/-- No part holds the separator. -/
theorem not_mem_of_mem_split {separator : Char} {text part : List Char}
    (h : part ∈ split separator text) : separator ∉ part := by
  induction text generalizing part with
  | nil =>
      rw [split, List.mem_singleton] at h
      simp [h]
  | cons c rest ih =>
      unfold split at h
      split at h
      · rcases List.mem_cons.mp h with rfl | hrest
        · simp
        · exact ih hrest
      · next hne =>
          cases hparts : split separator rest with
          | nil => exact absurd hparts (split_ne_nil separator rest)
          | cons first others =>
              rw [hparts] at h ih
              rcases List.mem_cons.mp h with rfl | hother
              · simpa [Ne.symm hne] using ih List.mem_cons_self
              · exact ih (List.mem_cons_of_mem _ hother)

/-- Joining parts is what the library calls intercalating the separator. -/
theorem join_eq_intercalate (separator : Char) (parts : List (List Char)) :
    join separator parts = [separator].intercalate parts := by
  induction parts with
  | nil => rfl
  | cons part rest ih =>
      cases rest with
      | nil => simp [join]
      | cons next others => simp [join, ih, List.intercalate_cons_cons]

/-- Cutting a text is what the library calls splitting it on the separator. -/
theorem split_eq_splitOn (separator : Char) (text : List Char) :
    split separator text = text.splitOn separator := by
  induction text with
  | nil => rw [List.splitOn_nil, split]
  | cons c rest ih =>
      rw [List.splitOn_cons_eq_if_modifyHead, split, ih]
      by_cases hc : c = separator
      · simp [hc]
      · cases hparts : rest.splitOn separator with
        | nil => exact absurd hparts (List.splitOn_ne_nil separator rest)
        | cons first others => simp [hc, onFirst]

/-- Parts that do not hold the separator are found again after joining. -/
theorem split_join {separator : Char} {parts : List (List Char)} (hne : parts ≠ [])
    (h : ∀ part ∈ parts, separator ∉ part) : split separator (join separator parts) = parts := by
  rw [split_eq_splitOn, join_eq_intercalate, List.splitOn_intercalate separator h hne]

/-- What a predicate marks off is not changed by the text behind, unless it marks off the whole text
and goes on. -/
theorem span_append_of_stop {p : Char → Bool} (front : List Char) {rest : List Char}
    (h : (∀ c ∈ front, p c = true) → ∀ c ∈ rest.head?, p c = false) :
    (front ++ rest).takeWhile p = front.takeWhile p ∧
      (front ++ rest).dropWhile p = front.dropWhile p ++ rest := by
  induction front with
  | nil =>
      cases rest with
      | nil => simp
      | cons c rest => simp [h (by simp) c rfl]
  | cons c front ih =>
      by_cases hc : p c = true
      · obtain ⟨htake, hdrop⟩ := ih fun hfront => h (List.forall_mem_cons.mpr ⟨hc, hfront⟩)
        simp [hc, htake, hdrop]
      · simp [hc]

/-- A front whose characters satisfy a predicate, before a character that does not, is what is
taken. -/
theorem span_append {p : Char → Bool} {front rest : List Char} (hfront : ∀ c ∈ front, p c = true)
    (hrest : ∀ c ∈ rest.head?, p c = false) :
    (front ++ rest).takeWhile p = front ∧ (front ++ rest).dropWhile p = rest := by
  rw [List.takeWhile_append_of_pos hfront, List.dropWhile_append_of_pos hfront]
  simpa using span_append_of_stop [] fun _ => hrest

/-- A front whose characters satisfy a predicate, before a character that does not, is told from the
whole text, and so is what follows it. -/
theorem append_inj_of_stop {p : Char → Bool} {front rest other tail : List Char}
    (hfront : ∀ c ∈ front, p c = true) (hrest : ∀ c ∈ rest.head?, p c = false)
    (hother : ∀ c ∈ other, p c = true) (htail : ∀ c ∈ tail.head?, p c = false)
    (h : front ++ rest = other ++ tail) : front = other ∧ rest = tail := by
  obtain ⟨hfirst, hbehind⟩ := span_append hfront hrest
  obtain ⟨hsecond, hafter⟩ := span_append hother htail
  rw [h] at hfirst hbehind
  exact ⟨hfirst.symm.trans hsecond, hbehind.symm.trans hafter⟩

end StyleProps.Text
