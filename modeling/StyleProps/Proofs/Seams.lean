import StyleProps.Proofs.Splitting

/-!
# Where texts are split

Splitting in terms of what a scan from the left meets: the bracket escapes of a text (`escapes`) and
the positions of the separators at which it is split (`splitPoints`). Splitting cuts no bracket
escape (`flatMap_escapes_splitOutside`). Two texts that are put together have the split points of
both (`splitPoints_append`), unless the last bracket of the first one opens and the first bracket of
the second one closes: then everything between these two becomes the content of an escape, and
nothing is split there (`exists_of_not_seam`, `splitPoints_across`). The main result,
`splitOutside_lossless_and_seams`, has all of this.
-/

namespace StyleProps.Statement

/-! ## Escapes -/

/-- The contents of the bracket escapes of a text, as they are met from left to right. What begins
no escape is passed over one character at a time. -/
def escapes (chars : List Char) : List (List Char) :=
  match chars with
  | [] => []
  | c :: rest =>
      match _h : bracket? (c :: rest) with
      | some (content, after) => content :: escapes after
      | none => escapes rest
termination_by chars.length
decreasing_by
  · exact length_of_bracket? _h
  · simp

/-- An escape at the front is met first. -/
theorem escapes_of_bracket? {chars content after : List Char}
    (h : bracket? chars = some (content, after)) : escapes chars = content :: escapes after := by
  cases chars with
  | nil => cases h
  | cons c rest =>
      rw [escapes]
      split
      · next heq =>
          obtain ⟨rfl, rfl⟩ := Prod.mk.inj (Option.some.inj (h.symm.trans heq))
          rfl
      · next heq => cases h.symm.trans heq

/-- A character that begins no escape is passed over. -/
theorem escapes_cons_of_none {c : Char} {rest : List Char} (h : bracket? (c :: rest) = none) :
    escapes (c :: rest) = escapes rest := by
  rw [escapes]
  split
  · next heq => cases h.symm.trans heq
  · rfl

/-- The escapes of the parts of a text are those of the text: splitting cuts none and makes none. -/
theorem flatMap_escapes_splitOutside (separator : Char) (chars : List Char) :
    (splitOutside separator chars).flatMap escapes = escapes chars := by
  fun_induction splitOutside separator chars with
  | case1 => simp [escapes]
  | case2 c rest content after hread ih =>
      obtain ⟨_, hne, hcontent⟩ := eq_of_bracket? hread
      cases hparts : splitOutside separator after with
      | nil => exact absurd hparts (splitOutside_ne_nil separator after)
      | cons first others =>
          have hfirst := bracket?_append hne hcontent first
          have htext : '[' :: (content ++ [']']) ++ first = '[' :: (content ++ ']' :: first) := by
            simp
          rw [hparts, List.flatMap_cons] at ih
          rw [Text.onFirst, List.flatMap_cons, htext, escapes_of_bracket? hfirst,
            escapes_of_bracket? hread, List.cons_append, ih]
  | case3 rest hread ih => rw [List.flatMap_cons, ih, escapes_cons_of_none hread, escapes,
      List.nil_append]
  | case4 c rest hread hne ih =>
      cases hparts : splitOutside separator rest with
      | nil => exact absurd hparts (splitOutside_ne_nil separator rest)
      | cons first others =>
          have hfirst := bracket?_cons_of_splitOutside hread hparts
          rw [hparts, List.flatMap_cons] at ih
          rw [Text.onFirst, List.flatMap_cons, List.singleton_append, escapes_cons_of_none hfirst,
            escapes_cons_of_none hread, ih]

/-! ## Split points -/

/-- The positions of the separators between parts that are joined. -/
def cuts : List (List Char) → List Nat
  | [] => []
  | [_] => []
  | part :: rest => part.length :: (cuts rest).map (· + (part.length + 1))

/-- The positions of the separators at which a text is split. -/
def splitPoints (separator : Char) (chars : List Char) : List Nat :=
  cuts (splitOutside separator chars)

/-- Characters in front move all separators. -/
theorem cuts_onFirst (chars : List Char) {parts : List (List Char)} (h : parts ≠ []) :
    cuts (Text.onFirst chars parts) = (cuts parts).map (· + chars.length) := by
  match parts, h with
  | [part], _ => rfl
  | part :: next :: rest, _ =>
      simp only [Text.onFirst, cuts, List.length_append, List.map_cons, List.map_map,
        Function.comp_def]
      congr 1
      · omega
      · congr 1
        funext n
        omega

/-- Behind a first part, separators are moved by its length and by the separator that ends it. -/
theorem cuts_cons (part : List Char) {rest : List (List Char)} (h : rest ≠ []) :
    cuts (part :: rest) = part.length :: (cuts rest).map (· + (part.length + 1)) := by
  match rest, h with
  | next :: rest, _ => rfl

/-- Behind a text, separators are moved by its length. -/
theorem cuts_glue (separator : Char) {parts others : List (List Char)} (hparts : parts ≠ [])
    (hothers : others ≠ []) :
    cuts (glue parts others) =
      cuts parts ++ (cuts others).map (· + (Text.join separator parts).length) := by
  induction parts with
  | nil => exact absurd rfl hparts
  | cons part rest ih =>
      cases rest with
      | nil => exact cuts_onFirst part hothers
      | cons next rest =>
          have hne : next :: rest ≠ [] := List.cons_ne_nil next rest
          have hglue : glue (next :: rest) others ≠ [] := by
            cases rest with
            | nil =>
                obtain ⟨first, tail, rfl⟩ := List.exists_cons_of_ne_nil hothers
                exact List.cons_ne_nil _ _
            | cons _ _ => exact List.cons_ne_nil _ _
          have hlength : (Text.join separator (part :: next :: rest)).length =
              (Text.join separator (next :: rest)).length + (part.length + 1) := by
            simp only [Text.join, List.length_append, List.length_cons]
            omega
          rw [glue, cuts_cons part hglue, ih hne, cuts_cons part hne, hlength, List.map_append,
            List.map_map, List.cons_append]
          · simp only [Function.comp_def, Nat.add_assoc]
          · simp

/-- A separator between parts stands inside the joined text. -/
theorem lt_length_of_mem_cuts (separator : Char) {parts : List (List Char)} {n : Nat}
    (h : n ∈ cuts parts) : n < (Text.join separator parts).length := by
  induction parts generalizing n with
  | nil => cases h
  | cons part rest ih =>
      cases rest with
      | nil => cases h
      | cons next rest =>
          have hlength : (Text.join separator (part :: next :: rest)).length =
              part.length + 1 + (Text.join separator (next :: rest)).length := by
            simp only [Text.join, List.length_append, List.length_cons]
            omega
          rw [cuts_cons part (List.cons_ne_nil next rest)] at h
          rcases List.mem_cons.mp h with rfl | hlater
          · omega
          · obtain ⟨m, hm, rfl⟩ := List.mem_map.mp hlater
            have := ih hm
            omega

/-- A text is split at positions inside it. -/
theorem lt_length_of_mem_splitPoints {separator : Char} {chars : List Char} {n : Nat}
    (h : n ∈ splitPoints separator chars) : n < chars.length := by
  have hlt := lt_length_of_mem_cuts separator h
  rwa [join_splitOutside] at hlt

/-- Two texts are split at the points of both, if no bracket escape reaches across. -/
theorem splitPoints_append {separator : Char} (hseparator : separator ≠ '[')
    {front back : List Char} (h : Seam front back) :
    splitPoints separator (front ++ back) =
      splitPoints separator front ++ (splitPoints separator back).map (· + front.length) := by
  have hcuts := cuts_glue separator (splitOutside_ne_nil separator front)
    (splitOutside_ne_nil separator back)
  rw [join_splitOutside] at hcuts
  rw [splitPoints, splitOutside_append_of_seam hseparator h, hcuts, splitPoints, splitPoints]

/-- A bracket escape in front moves the points at which a text is split. -/
theorem splitPoints_of_bracket? {separator : Char} {chars content after : List Char}
    (h : bracket? chars = some (content, after)) :
    splitPoints separator chars =
      (splitPoints separator after).map (· + (content.length + 2)) := by
  rw [splitPoints, splitOutside_of_bracket? h,
    cuts_onFirst _ (splitOutside_ne_nil separator after), splitPoints]
  simp

/-! ## Across an open bracket -/

/-- If something reaches across, the first text ends in an opening bracket and the second one begins
with a closing bracket, each with some text without brackets. -/
theorem exists_of_not_seam {front back : List Char} (h : ¬ Seam front back) :
    ∃ start inner outer rest, front = start ++ '[' :: inner ∧ back = outer ++ ']' :: rest ∧
      ∀ c ∈ inner ++ outer, isBracket c = false := by
  have hfree : ∀ chars : List Char, chars.filter isBracket = [] →
      ∀ c ∈ chars, isBracket c = false := by
    intro chars hfilter c hc
    simpa using List.filter_eq_nil_iff.mp hfilter c hc
  obtain ⟨hlast, hfirst⟩ := Classical.not_imp.mp h
  obtain ⟨before, hbefore⟩ := List.getLast?_eq_some_iff.mp hlast
  obtain ⟨start, tail, rfl, _, htail⟩ := List.filter_eq_append_iff.mp hbefore
  obtain ⟨gap, inner, rfl, hgap, _, hinner⟩ := List.filter_eq_cons_iff.mp htail
  obtain ⟨behind, hbehind⟩ := List.head?_eq_some_iff.mp (Classical.not_not.mp hfirst)
  obtain ⟨outer, rest, rfl, houter, _, _⟩ := List.filter_eq_cons_iff.mp hbehind
  refine ⟨start ++ gap, inner, outer, rest, by simp, rfl, fun c hc => ?_⟩
  rcases List.mem_append.mp hc with hmem | hmem
  · exact hfree inner hinner c hmem
  · simpa using houter c hmem

/-- No bracket escape reaches across to an opening bracket. -/
theorem seam_cons_open (front rest : List Char) : Seam front ('[' :: rest) := by
  intro _ hfirst
  rw [List.filter_cons_of_pos rfl] at hfirst
  cases hfirst

/-- No bracket escape reaches across from a closing bracket. -/
theorem seam_concat_close (front back : List Char) : Seam (front ++ [']']) back := by
  intro hlast
  rw [List.filter_append, List.filter_cons_of_pos rfl, List.filter_nil,
    List.getLast?_concat] at hlast
  cases hlast

/-- The split points inside the first of two texts are its own. -/
theorem filter_lt_splitPoints_append {separator : Char} (hseparator : separator ≠ '[')
    {front back : List Char} (h : Seam front back) :
    (splitPoints separator (front ++ back)).filter (· < front.length) =
      splitPoints separator front := by
  have hfront : (splitPoints separator front).filter (· < front.length) =
      splitPoints separator front :=
    List.filter_eq_self.mpr fun n hn => by simpa using lt_length_of_mem_splitPoints hn
  have hback : ((splitPoints separator back).map (· + front.length)).filter (· < front.length) =
      [] := by
    refine List.filter_eq_nil_iff.mpr fun n hn => ?_
    obtain ⟨m, _, rfl⟩ := List.mem_map.mp hn
    simp
  rw [splitPoints_append hseparator h, List.filter_append, hfront, hback, List.append_nil]

/-- The split points behind the first of two texts are those of the second one. -/
theorem filter_le_splitPoints_append {separator : Char} (hseparator : separator ≠ '[')
    {front back : List Char} (h : Seam front back) :
    (splitPoints separator (front ++ back)).filter (front.length ≤ ·) =
      (splitPoints separator back).map (· + front.length) := by
  have hfront : (splitPoints separator front).filter (front.length ≤ ·) = [] := by
    refine List.filter_eq_nil_iff.mpr fun n hn => ?_
    simpa using lt_length_of_mem_splitPoints hn
  have hback : ((splitPoints separator back).map (· + front.length)).filter (front.length ≤ ·) =
      (splitPoints separator back).map (· + front.length) := by
    refine List.filter_eq_self.mpr fun n hn => ?_
    obtain ⟨m, _, rfl⟩ := List.mem_map.mp hn
    simp
  rw [splitPoints_append hseparator h, List.filter_append, hfront, hback, List.nil_append]

/-- Where an escape reaches across, the split points are those of the first text before its last
bracket and those of the second one behind its first bracket. -/
theorem splitPoints_across {separator : Char} (hseparator : isBracket separator = false)
    {start inner outer rest : List Char} (hfree : ∀ c ∈ inner ++ outer, isBracket c = false) :
    splitPoints separator ((start ++ '[' :: inner) ++ separator :: (outer ++ ']' :: rest)) =
      (splitPoints separator (start ++ '[' :: inner)).filter (· < start.length) ++
        ((splitPoints separator (outer ++ ']' :: rest)).filter (outer.length < ·)).map
          (· + ((start ++ '[' :: inner).length + 1)) := by
  have hne : separator ≠ '[' := by
    rintro rfl
    cases hseparator
  have hcontent : ∀ c ∈ inner ++ separator :: outer, isBracket c = false := by
    intro c hc
    rcases List.mem_append.mp hc with hmem | hmem
    · exact hfree c (List.mem_append_left outer hmem)
    · rcases List.mem_cons.mp hmem with rfl | hmem
      · exact hseparator
      · exact hfree c (List.mem_append_right inner hmem)
  have hread := bracket?_append (by simp) hcontent rest
  have hwhole : (start ++ '[' :: inner) ++ separator :: (outer ++ ']' :: rest) =
      start ++ '[' :: ((inner ++ separator :: outer) ++ ']' :: rest) := by simp
  have hback : (splitPoints separator (outer ++ ']' :: rest)).filter (outer.length < ·) =
      (splitPoints separator rest).map (· + (outer.length + 1)) := by
    have hsplit := filter_le_splitPoints_append hne (seam_concat_close outer rest)
    simpa [Nat.add_one_le_iff] using hsplit
  rw [hwhole, splitPoints_append hne (seam_cons_open start _), splitPoints_of_bracket? hread,
    filter_lt_splitPoints_append hne (seam_cons_open start inner), hback]
  simp only [List.map_map, List.length_append, List.length_cons, Function.comp_def]
  congr 2
  funext n
  omega

/-- Splitting at a separator that is no bracket loses nothing, and every part is a single part by
itself and keeps its bracket escapes. Two texts with a separator between them have the parts of
both, unless the last bracket of the first one opens and the first bracket of the second one closes:
then the split points are those of the first text before that opening bracket and those of the
second one behind that closing bracket, and no separator between the two brackets splits. -/
theorem splitOutside_lossless_and_seams {separator : Char}
    (hseparator : isBracket separator = false) (chars others : List Char) :
    Text.join separator (splitOutside separator chars) = chars ∧
      (∀ part ∈ splitOutside separator chars, splitOutside separator part = [part]) ∧
      (splitOutside separator chars).flatMap escapes = escapes chars ∧
      (Seam chars others → splitOutside separator (chars ++ separator :: others) =
        splitOutside separator chars ++ splitOutside separator others) ∧
      (¬ Seam chars others → ∃ start inner outer rest,
        chars = start ++ '[' :: inner ∧ others = outer ++ ']' :: rest ∧
        (∀ c ∈ inner ++ outer, isBracket c = false) ∧
        splitPoints separator (chars ++ separator :: others) =
          (splitPoints separator chars).filter (· < start.length) ++
            ((splitPoints separator others).filter (outer.length < ·)).map
              (· + (chars.length + 1))) := by
  refine ⟨join_splitOutside separator chars, fun part hpart => splitOutside_of_mem hpart,
    flatMap_escapes_splitOutside separator chars, fun hseam => ?_, fun hnot => ?_⟩
  · refine splitOutside_append hseparator ?_
    intro hlast
    rw [List.filter_cons_of_neg (by simp [hseparator])]
    exact hseam hlast
  · obtain ⟨start, inner, outer, rest, rfl, rfl, hfree⟩ := exists_of_not_seam hnot
    exact ⟨start, inner, outer, rest, rfl, rfl, hfree, splitPoints_across hseparator hfree⟩

/-- A bracket that is left open in front of a bar and closed behind it. -/
theorem splitOutside_lossless_and_seams_open :
    isBracket '|' = false ∧ ¬ Seam "a|[b|".toList "c]|d".toList ∧
      ∃ start inner outer rest, "a|[b|".toList = start ++ '[' :: inner ∧
        "c]|d".toList = outer ++ ']' :: rest ∧ (∀ c ∈ inner ++ outer, isBracket c = false) ∧
        splitPoints '|' ("a|[b|".toList ++ '|' :: "c]|d".toList) =
          (splitPoints '|' "a|[b|".toList).filter (· < start.length) ++
            ((splitPoints '|' "c]|d".toList).filter (outer.length < ·)).map
              (· + ("a|[b|".toList.length + 1)) := by
  have hopen : ¬ Seam "a|[b|".toList "c]|d".toList := fun h => h (by decide) (by decide)
  exact ⟨rfl, hopen, (splitOutside_lossless_and_seams rfl _ _).2.2.2.2 hopen⟩

/-- Of the four bars, the first one and the last one split. -/
example : splitPoints '|' "a|[b||c]|d".toList = [1, 8] := by decide +kernel

end StyleProps.Statement
