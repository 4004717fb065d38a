import StyleProps.Proofs.Lexing
import StyleProps.Statement.Split

/-!
# Texts that are not split

A text is `Unsplit` if splitting passes over it, whatever follows: its separators all stand inside
bracket escapes that it closes itself. Such texts can be put together, and parts that are joined are
found again by splitting (`splitOutside_join`).

Of any text, splitting loses nothing (`join_splitOutside`), and each part is a single part by itself
(`splitOutside_of_mem`). A text that is split behind a separator has the parts of both its halves if
no bracket escape reaches across (`splitOutside_append`).
-/

namespace StyleProps.Statement

/-- Whether splitting passes over a text, whatever follows it. -/
def Unsplit (separator : Char) (chars : List Char) : Prop :=
  ∀ rest, splitOutside separator (chars ++ rest) =
    Text.onFirst chars (splitOutside separator rest)

/-- A bracket escape is passed over. -/
theorem splitOutside_of_bracket? {separator : Char} {chars content after : List Char}
    (h : bracket? chars = some (content, after)) :
    splitOutside separator chars =
      Text.onFirst ('[' :: (content ++ [']'])) (splitOutside separator after) := by
  cases chars with
  | nil => simp [bracket?] at h
  | cons c rest =>
      rw [splitOutside]
      split
      · next heq =>
          rw [h, Option.some.injEq, Prod.mk.injEq] at heq
          rw [heq.1, heq.2]
      · next heq => simp [h] at heq

/-- A separator outside bracket escapes ends a part. -/
theorem splitOutside_separator {separator : Char} (h : separator ≠ '[') (rest : List Char) :
    splitOutside separator (separator :: rest) = [] :: splitOutside separator rest := by
  rw [splitOutside]
  split
  · next heq => simp [bracket?_cons_of_ne h] at heq
  · rw [if_pos rfl]

/-- Any other character that begins no bracket escape is passed over. -/
theorem splitOutside_of_none {separator c : Char} {rest : List Char}
    (h : bracket? (c :: rest) = none) (hseparator : c ≠ separator) :
    splitOutside separator (c :: rest) = Text.onFirst [c] (splitOutside separator rest) := by
  rw [splitOutside]
  split
  · next heq => simp [h] at heq
  · rw [if_neg hseparator]

/-- Any other character that opens no bracket is passed over. -/
theorem splitOutside_cons {separator c : Char} (hbracket : c ≠ '[') (hseparator : c ≠ separator)
    (rest : List Char) :
    splitOutside separator (c :: rest) = Text.onFirst [c] (splitOutside separator rest) :=
  splitOutside_of_none (bracket?_cons_of_ne hbracket rest) hseparator

/-- There is always a first part. -/
theorem splitOutside_ne_nil (separator : Char) (chars : List Char) :
    splitOutside separator chars ≠ [] := by
  have honFirst : ∀ front parts, Text.onFirst front parts ≠ [] := by
    intro front parts
    cases parts <;> simp [Text.onFirst]
  rw [splitOutside.eq_def]
  split
  · simp
  · split
    · exact honFirst _ _
    · split
      · simp
      · exact honFirst _ _

/-- Characters put in front of a first part one after the other. -/
theorem onFirst_append (first second : List Char) {parts : List (List Char)} (h : parts ≠ []) :
    Text.onFirst (first ++ second) parts = Text.onFirst first (Text.onFirst second parts) := by
  cases parts with
  | nil => exact absurd rfl h
  | cons part rest => simp [Text.onFirst]

namespace Unsplit

variable {separator : Char} {chars others : List Char}

/-- The empty text is passed over. -/
theorem nil : Unsplit separator [] := by
  intro rest
  cases hsplit : splitOutside separator rest with
  | nil => exact absurd hsplit (splitOutside_ne_nil separator rest)
  | cons part parts => simp [hsplit, Text.onFirst]

/-- Texts that are passed over can be put together. -/
theorem append (hchars : Unsplit separator chars) (hothers : Unsplit separator others) :
    Unsplit separator (chars ++ others) := by
  intro rest
  rw [List.append_assoc, hchars, hothers, onFirst_append _ _ (splitOutside_ne_nil _ _)]

/-- A text without separators and opening brackets is passed over. -/
theorem of_not_mem (hbracket : '[' ∉ chars) (hseparator : separator ∉ chars) :
    Unsplit separator chars := by
  induction chars with
  | nil => exact nil
  | cons c rest ih =>
      simp only [List.mem_cons, not_or] at hbracket hseparator
      have hfirst : Unsplit separator [c] := fun tail =>
        splitOutside_cons (Ne.symm hbracket.1) (Ne.symm hseparator.1) tail
      exact hfirst.append (ih hbracket.2 hseparator.2)

/-- A bracket escape is passed over, whatever it holds. -/
theorem bracket {content : List Char} (hne : content ≠ [])
    (h : ∀ c ∈ content, isBracket c = false) :
    Unsplit separator ('[' :: (content ++ [']'])) := by
  intro rest
  have hread := bracket?_append hne h rest
  have happend : '[' :: (content ++ [']']) ++ rest = '[' :: (content ++ ']' :: rest) := by simp
  rw [happend, splitOutside_of_bracket? hread]

/-- A text that is passed over is a single part. -/
theorem splitOutside_eq (h : Unsplit separator chars) : splitOutside separator chars = [chars] := by
  have hrest := h []
  rw [List.append_nil] at hrest
  rw [hrest, splitOutside, Text.onFirst, List.append_nil]

/-- Before a separator, a text that is passed over is the first part. -/
theorem splitOutside_append_cons (h : Unsplit separator chars) (hseparator : separator ≠ '[')
    (rest : List Char) :
    splitOutside separator (chars ++ separator :: rest) =
      chars :: splitOutside separator rest := by
  rw [h, splitOutside_separator hseparator, Text.onFirst, List.append_nil]

end Unsplit

/-- A style text without bars outside of bracket escapes is a single statement. -/
theorem split_of_unsplit {text : String} (h : Unsplit '|' text.toList) : split text = [text] := by
  rw [split, h.splitOutside_eq, List.map_cons, List.map_nil, String.ofList_toList]

/-- Parts that are passed over are found again after they were joined. -/
theorem splitOutside_join {separator : Char} (hseparator : separator ≠ '[')
    {parts : List (List Char)} (hne : parts ≠ []) (h : ∀ part ∈ parts, Unsplit separator part) :
    splitOutside separator (Text.join separator parts) = parts := by
  induction parts with
  | nil => exact absurd rfl hne
  | cons part rest ih =>
      have hpart := h part List.mem_cons_self
      cases rest with
      | nil => exact hpart.splitOutside_eq
      | cons next others =>
          rw [Text.join, hpart.splitOutside_append_cons hseparator,
            ih (by simp) fun other hother => h other (List.mem_cons_of_mem _ hother)]
          simp

/-- Whatever can be written as single statements and read back from them can be read back from the
joined text. -/
theorem map_split_join {α : Type} {write : α → String} {read : String → α} {xs : List α}
    (hne : xs ≠ []) (hunsplit : ∀ x ∈ xs, Unsplit '|' (write x).toList)
    (hread : ∀ x ∈ xs, read (write x) = x) :
    (split (String.ofList (Text.join '|' (xs.map fun x => (write x).toList)))).map read = xs := by
  have hparts : ∀ part ∈ xs.map fun x => (write x).toList, Unsplit '|' part := by
    intro part hpart
    obtain ⟨x, hmem, rfl⟩ := List.mem_map.mp hpart
    exact hunsplit x hmem
  have hsplit := splitOutside_join (by decide) (by simpa using hne) hparts
  have hid : ∀ x ∈ xs, read (String.ofList (write x).toList) = id x := by
    intro x hmem
    rw [String.ofList_toList, hread x hmem, id]
  rw [split, String.toList_ofList, hsplit, List.map_map, List.map_map]
  exact (List.map_congr_left hid).trans (List.map_id xs)

/-! ## The parts of any text -/

/-- Joining the parts of a text gives the text back. -/
theorem join_splitOutside (separator : Char) (chars : List Char) :
    Text.join separator (splitOutside separator chars) = chars := by
  fun_induction splitOutside separator chars with
  | case1 => rfl
  | case2 c rest content after hread ih =>
      rw [Text.join_onFirst separator _ (splitOutside_ne_nil separator after), ih]
      simpa using (eq_of_bracket? hread).1.symm
  | case3 rest hread ih => rw [Text.join_nil_cons separator (splitOutside_ne_nil _ _), ih]
  | case4 c rest hread hne ih =>
      rw [Text.join_onFirst separator _ (splitOutside_ne_nil separator rest), ih]
      rfl

/-- The first part of a text stands at its front. -/
theorem exists_append_of_splitOutside {separator : Char} {chars first : List Char}
    {others : List (List Char)} (h : splitOutside separator chars = first :: others) :
    ∃ tail, chars = first ++ tail := by
  have hjoin := join_splitOutside separator chars
  rw [h] at hjoin
  cases others with
  | nil => exact ⟨[], by rw [← hjoin, Text.join, List.append_nil]⟩
  | cons next rest => exact ⟨_, hjoin.symm⟩

/-- If no bracket escape begins in front of a text, none begins in front of its first part. -/
theorem bracket?_cons_of_splitOutside {separator c : Char} {chars first : List Char}
    {others : List (List Char)} (hread : bracket? (c :: chars) = none)
    (h : splitOutside separator chars = first :: others) : bracket? (c :: first) = none := by
  obtain ⟨tail, rfl⟩ := exists_append_of_splitOutside h
  cases hfirst : bracket? (c :: first) with
  | none => rfl
  | some found =>
      have hlonger := bracket?_append_of_some hfirst tail
      rw [List.cons_append, hread] at hlonger
      cases hlonger

/-- Every part of a text is a single part by itself. -/
theorem splitOutside_of_mem {separator : Char} {chars part : List Char}
    (h : part ∈ splitOutside separator chars) : splitOutside separator part = [part] := by
  fun_induction splitOutside separator chars generalizing part with
  | case1 =>
      rw [List.mem_singleton.mp h, splitOutside]
  | case2 c rest content after hread ih =>
      obtain ⟨_, hne, hcontent⟩ := eq_of_bracket? hread
      cases hparts : splitOutside separator after with
      | nil => exact absurd hparts (splitOutside_ne_nil separator after)
      | cons first others =>
          rw [hparts] at h ih
          rcases List.mem_cons.mp h with rfl | hother
          · have hbracket : Unsplit separator ('[' :: (content ++ [']'])) :=
              Unsplit.bracket hne hcontent
            rw [hbracket, ih List.mem_cons_self, Text.onFirst]
          · exact ih (List.mem_cons_of_mem _ hother)
  | case3 rest hread ih =>
      rcases List.mem_cons.mp h with rfl | hother
      · rw [splitOutside]
      · exact ih hother
  | case4 c rest hread hne ih =>
      cases hparts : splitOutside separator rest with
      | nil => exact absurd hparts (splitOutside_ne_nil separator rest)
      | cons first others =>
          rw [hparts] at h ih
          rcases List.mem_cons.mp h with rfl | hother
          · -- No bracket escape begins at the character before the part.
            have hnone := bracket?_cons_of_splitOutside hread hparts
            show splitOutside separator (c :: first) = [c :: first]
            rw [splitOutside_of_none hnone hne, ih List.mem_cons_self, Text.onFirst,
              List.singleton_append]
          · exact ih (List.mem_cons_of_mem _ hother)

/-- Whether no bracket that a text leaves open at its end is closed by the text after it. -/
def Seam (front back : List Char) : Prop :=
  (front.filter isBracket).getLast? = some '[' → (back.filter isBracket).head? ≠ some ']'

/-- The end of a text leaves no other bracket open than the text. -/
theorem Seam.of_suffix {whole front back : List Char} (h : Seam whole back)
    (hsuffix : front <:+ whole) : Seam front back := by
  intro hlast
  obtain ⟨start, rfl⟩ := hsuffix
  refine h ?_
  rw [List.filter_append, List.getLast?_append, hlast, Option.some_or]

/-- A text that begins with an opening bracket and has no other bracket is no seam with a text whose
first bracket closes. -/
theorem not_seam {start inner after : List Char} (hstart : ∀ c ∈ start, isBracket c = false)
    (hinner : ∀ c ∈ inner, isBracket c = false) :
    ¬ Seam ('[' :: start) (inner ++ ']' :: after) := by
  have hfilter : ∀ chars : List Char, (∀ c ∈ chars, isBracket c = false) →
      chars.filter isBracket = [] := by
    intro chars h
    exact List.filter_eq_nil_iff.mpr fun c hc => by simp [h c hc]
  have hopen : isBracket '[' = true := rfl
  have hclose : isBracket ']' = true := rfl
  intro h
  refine h ?_ ?_
  · rw [List.filter_cons_of_pos hopen, hfilter start hstart]
    rfl
  · rw [List.filter_append, hfilter inner hinner, List.filter_cons_of_pos hclose]
    rfl

/-- No bracket escape reaches across a seam. -/
theorem bracket?_append_of_none {front back : List Char} (h : bracket? front = none)
    (hne : front ≠ []) (hseam : Seam front back) : bracket? (front ++ back) = none := by
  cases hread : bracket? (front ++ back) with
  | none => rfl
  | some found =>
      obtain ⟨content, after⟩ := found
      obtain ⟨heq, hcontent, hfree⟩ := eq_of_bracket? hread
      rw [← List.cons_append] at heq
      -- The front ends before the closing bracket, or the whole escape stands in it.
      rcases List.append_eq_append_iff.mp heq with ⟨inner, hopen, rfl⟩ | ⟨inner, rfl, hback⟩
      · cases front with
        | nil => exact absurd rfl hne
        | cons c start =>
            obtain ⟨rfl, rfl⟩ := List.cons.inj hopen
            exact absurd hseam (not_seam (fun c hc => hfree c (List.mem_append_left inner hc))
              fun c hc => hfree c (List.mem_append_right start hc))
      · cases inner with
        | nil =>
            rw [List.append_nil, show back = [] ++ ']' :: after from hback.symm] at hseam
            exact absurd hseam (not_seam hfree fun c hc => nomatch hc)
        | cons c tail =>
            obtain ⟨rfl, _⟩ := List.cons.inj hback
            rw [List.cons_append, bracket?_append hcontent hfree tail] at h
            cases h

/-- Two texts that are split, put together: the last part of the first one and the first part of the
second one become one part. -/
def glue : List (List Char) → List (List Char) → List (List Char)
  | [], others => others
  | [part], others => Text.onFirst part others
  | part :: rest, others => part :: glue rest others

/-- Characters in front of the first text stand in front of both. -/
theorem glue_onFirst (chars : List Char) {parts others : List (List Char)} (hparts : parts ≠ [])
    (hothers : others ≠ []) :
    glue (Text.onFirst chars parts) others = Text.onFirst chars (glue parts others) := by
  match parts, hparts with
  | [part], _ => exact onFirst_append chars part hothers
  | part :: next :: rest, _ => rfl

/-- An empty part in front of the first text stands in front of both. -/
theorem glue_nil_cons {parts : List (List Char)} (hparts : parts ≠ []) (others : List (List Char)) :
    glue ([] :: parts) others = [] :: glue parts others := by
  match parts, hparts with
  | part :: rest, _ => rfl

/-- If the second text begins with a separator, no parts become one. -/
theorem glue_cons_nil {parts : List (List Char)} (hparts : parts ≠ []) (others : List (List Char)) :
    glue parts ([] :: others) = parts ++ others := by
  induction parts with
  | nil => exact absurd rfl hparts
  | cons part rest ih =>
      cases rest with
      | nil => simp [glue, Text.onFirst]
      | cons next rest => exact congrArg (part :: ·) (ih (List.cons_ne_nil next rest))

/-- Two texts are split as they would be by themselves, if no bracket escape reaches across. -/
theorem splitOutside_append_of_seam {separator : Char} (hseparator : separator ≠ '[')
    {front back : List Char} (h : Seam front back) :
    splitOutside separator (front ++ back) =
      glue (splitOutside separator front) (splitOutside separator back) := by
  have hback := splitOutside_ne_nil separator back
  fun_induction splitOutside separator front with
  | case1 => exact Unsplit.nil back
  | case2 c rest content after hread ih =>
      have hafter : after <:+ c :: rest :=
        ⟨'[' :: (content ++ [']']), by simpa using (eq_of_bracket? hread).1.symm⟩
      rw [splitOutside_of_bracket? (bracket?_append_of_some hread _), ih (h.of_suffix hafter),
        glue_onFirst _ (splitOutside_ne_nil separator after) hback]
  | case3 rest hread ih =>
      rw [List.cons_append, splitOutside_separator hseparator,
        ih (h.of_suffix (List.suffix_cons separator rest)),
        glue_nil_cons (splitOutside_ne_nil separator rest)]
  | case4 c rest hread hother ih =>
      have hnone := bracket?_append_of_none hread (List.cons_ne_nil c rest) h
      rw [List.cons_append] at hnone ⊢
      rw [splitOutside_of_none hnone hother, ih (h.of_suffix (List.suffix_cons c rest)),
        glue_onFirst _ (splitOutside_ne_nil separator rest) hback]

/-- A text that is split behind a separator has the parts of both halves, if no bracket escape
reaches across. -/
theorem splitOutside_append {separator : Char} (hseparator : isBracket separator = false)
    {front back : List Char} (h : Seam front (separator :: back)) :
    splitOutside separator (front ++ separator :: back) =
      splitOutside separator front ++ splitOutside separator back := by
  have hne : separator ≠ '[' := by
    rintro rfl
    cases hseparator
  rw [splitOutside_append_of_seam hne h, splitOutside_separator hne,
    glue_cons_nil (splitOutside_ne_nil separator front)]

/-- Every statement of a style text is a single statement by itself. -/
theorem split_of_mem {text statement : String} (h : statement ∈ split text) :
    split statement = [statement] := by
  obtain ⟨part, hmem, rfl⟩ := List.mem_map.mp h
  rw [split, String.toList_ofList, splitOutside_of_mem hmem, List.map_cons, List.map_nil]

/-- A style text that is split behind a bar has the statements of both halves, if no bracket escape
reaches across. -/
theorem split_append {front back : String} (h : Seam front.toList ('|' :: back.toList)) :
    split (front ++ "|" ++ back) = split front ++ split back := by
  have htext : (front ++ "|" ++ back).toList = front.toList ++ '|' :: back.toList := by simp
  rw [split, htext, splitOutside_append rfl h, List.map_append, split, split]

end StyleProps.Statement
