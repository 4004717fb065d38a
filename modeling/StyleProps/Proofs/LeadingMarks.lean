import StyleProps.Proofs.PatternReading

/-!
# The marks in front of a statement

Statements of selectors are read by a scan that takes marks in front only, while the scan of
statements of aliases takes them everywhere. `Reads` is what the two have in common: pieces of a
text that are read as marks, one behind the other. The main result, `parseScoped_takes_first_marks`,
says that the scan in front takes pieces as long as it can, that the value is made of the rest and
nothing is left out, and that whatever it takes is what the other scan takes first.
-/

namespace StyleProps.Statement

/-! ## Pieces -/

/-- A mark, and the text that it is read from. -/
structure Piece where
  text : List Char
  mark : Mark

/-- Whether pieces are read at the front of a text one behind the other, so that a rest is left.
Each of them is read in view of everything that follows it. -/
inductive Reads : List Char → List Piece → List Char → Prop where
  | done (rest : List Char) : Reads rest [] rest
  | piece {text after rest : List Char} {mark : Mark} {pieces : List Piece}
      (hlex : Mark.lex? (text ++ after) = some (mark, after)) (hrest : Reads after pieces rest) :
      Reads (text ++ after) (⟨text, mark⟩ :: pieces) rest

/-- A mark is read from the text in front of what follows it. -/
theorem exists_append_of_lex? {chars after : List Char} {mark : Mark}
    (h : Mark.lex? chars = some (mark, after)) : ∃ text, chars = text ++ after := by
  rw [← map_matchAt?] at h
  obtain ⟨⟨shape, found⟩, hmatch, heq⟩ := Option.map_eq_some_iff.mp h
  obtain ⟨_, rfl⟩ := Prod.mk.inj heq
  obtain ⟨shape', _, hfirst⟩ := List.exists_of_findSome?_eq_some hmatch
  obtain ⟨found', hcandidate, heq⟩ := Option.map_eq_some_iff.mp hfirst
  obtain ⟨rfl, rfl⟩ := Prod.mk.inj heq
  exact ⟨found'.text, (Pattern.mem_candidates_iff.mp (List.mem_of_mem_head? hcandidate)).2.symm⟩

namespace Reads

variable {chars rest : List Char} {pieces : List Piece}

/-- The texts of the pieces and the rest make up the text. -/
theorem eq_append (h : Reads chars pieces rest) : chars = pieces.flatMap (·.text) ++ rest := by
  induction h with
  | done rest => rfl
  | @piece text after rest mark pieces hlex hrest ih =>
      rw [List.flatMap_cons, List.append_assoc, ← ih]

/-- No piece is empty. -/
theorem text_ne_nil (h : Reads chars pieces rest) : ∀ piece ∈ pieces, piece.text ≠ [] := by
  induction h with
  | done rest => exact fun piece hpiece => nomatch hpiece
  | @piece text after rest mark pieces hlex hrest ih =>
      refine List.forall_mem_cons.mpr ⟨?_, ih⟩
      rintro rfl
      exact absurd (Mark.length_of_lex? hlex) (Nat.lt_irrefl _)

/-- The marks of the pieces are the first marks of the text. -/
theorem marks_eq (h : Reads chars pieces rest) :
    marks chars = pieces.map (·.mark) ++ marks rest := by
  induction h with
  | done rest => rfl
  | @piece text after rest mark pieces hlex hrest ih =>
      rw [marks_of_lex? hlex, ih, List.map_cons, List.cons_append]

end Reads

/-! ## The scan in front -/

/-- What is read in front of a text are pieces of it. -/
theorem exists_reads_leading (hasMedia : Bool) (chars : List Char) :
    ∃ pieces, Reads chars pieces (leading hasMedia chars).2 ∧
      pieces.map (·.mark) = (leading hasMedia chars).1 := by
  have hpiece : ∀ {chars after rest : List Char} {mark : Mark} {marks : List Mark},
      Mark.lex? chars = some (mark, after) →
      (∃ pieces, Reads after pieces rest ∧ pieces.map (·.mark) = marks) →
      ∃ pieces, Reads chars pieces rest ∧ pieces.map (·.mark) = mark :: marks := by
    rintro chars after rest mark marks hlex ⟨pieces, hreads, hmarks⟩
    obtain ⟨text, rfl⟩ := exists_append_of_lex? hlex
    exact ⟨⟨text, mark⟩ :: pieces, .piece hlex hreads, congrArg (mark :: ·) hmarks⟩
  fun_induction leading hasMedia chars with
  | case1 hasMedia chars token after hlex marks rest hafter ih =>
      rw [hafter] at ih
      exact hpiece hlex ih
  | case2 chars name after hlex => exact ⟨[], .done chars, rfl⟩
  | case3 hasMedia chars name after hlex hnone marks rest hafter ih =>
      rw [hafter] at ih
      exact hpiece hlex ih
  | case4 hasMedia chars htoken hmedia => exact ⟨[], .done chars, rfl⟩

/-- The scan in front reads tokens and at most one media alias, and none if it has one already. -/
theorem kinds_leading (hasMedia : Bool) (chars : List Char) :
    (leading hasMedia chars).1.filterMap Mark.media? = (mediaOf (leading hasMedia chars).1).toList ∧
      (hasMedia = true → mediaOf (leading hasMedia chars).1 = none) ∧
      ∀ mark ∈ (leading hasMedia chars).1, mark.selector?.isSome ∨ mark.media?.isSome := by
  fun_induction leading hasMedia chars with
  | case1 hasMedia chars token after hlex marks rest hafter ih =>
      rw [hafter] at ih
      obtain ⟨hmedia, hnone, hkinds⟩ := ih
      exact ⟨hmedia, hnone, List.forall_mem_cons.mpr ⟨Or.inl rfl, hkinds⟩⟩
  | case2 chars name after hlex => exact ⟨rfl, fun _ => rfl, fun mark hmark => nomatch hmark⟩
  | case3 hasMedia chars name after hlex hnone marks rest hafter ih =>
      rw [hafter] at ih
      obtain ⟨hmedia, hothers, hkinds⟩ := ih
      have hnomore : marks.filterMap Mark.media? = [] := by
        rw [hmedia, hothers rfl, Option.toList_none]
      refine ⟨?_, fun h => absurd h hnone, List.forall_mem_cons.mpr ⟨Or.inr rfl, hkinds⟩⟩
      simp [Mark.media?, hnomore, mediaOf, List.findSome?_cons]
  | case4 hasMedia chars htoken hmedia =>
      exact ⟨rfl, fun _ => rfl, fun mark hmark => nomatch hmark⟩

/-- The scan in front stops where no token is read, and no media alias if it has none. -/
theorem stops_leading (hasMedia : Bool) (chars : List Char) :
    (∀ token after, Mark.lex? (leading hasMedia chars).2 ≠ some (.selector token, after)) ∧
      (hasMedia = false → mediaOf (leading hasMedia chars).1 = none →
        ∀ name after, Mark.lex? (leading hasMedia chars).2 ≠ some (.media name, after)) := by
  fun_induction leading hasMedia chars with
  | case1 hasMedia chars token after hlex marks rest hafter ih =>
      rw [hafter] at ih
      exact ih
  | case2 chars name after hlex =>
      refine ⟨fun token after' heq => ?_, fun h => nomatch h⟩
      cases hlex.symm.trans heq
  | case3 hasMedia chars name after hlex hnone marks rest hafter ih =>
      rw [hafter] at ih
      exact ⟨ih.1, fun _ h => nomatch h⟩
  | case4 hasMedia chars htoken hmedia =>
      exact ⟨fun token after heq => htoken token after heq,
        fun _ _ name after heq => hmedia name after heq⟩

/-- What one of the lexers reads is the mark at the front. -/
theorem lex?_of_shape {shape : Shape} {chars : List Char} {found : Mark × List Char}
    (h : shape.lex? chars = some found) : Mark.lex? chars = some found := by
  cases chars with
  | nil => cases shape <;> cases h
  | cons c rest =>
      obtain rfl : c = shape.opening := by
        by_contra hne
        rw [Shape.lex?_cons_of_ne hne] at h
        cases h
      cases shape <;> exact h

/-- What is not read as a mark of its shape is not read by itself. -/
theorem eq_none_of_shape (shape : Shape) {α : Type} {chars : List Char}
    {read : Option (α × List Char)} {mark : α → Mark}
    (h : ∀ value after, Mark.lex? chars ≠ some (mark value, after))
    (hshape : shape.lex? chars = read.map fun (value, after) => (mark value, after)) :
    read = none := by
  cases read with
  | none => rfl
  | some found => exact absurd (lex?_of_shape hshape) (h found.1 found.2)

/-! ## The value -/

/-- What is left of the text behind some other text: an equals sign is left out if there is other
text in front of it. -/
inductive LeftBehind : List Char → List Char → List Char → Prop where
  | equals {front rest : List Char} (h : front ≠ []) : LeftBehind front ('=' :: rest) rest
  | all {front rest : List Char} (h : front = [] ∨ rest.head? ≠ some '=') :
      LeftBehind front rest rest

/-- What a text is without brackets around it: the content of a single bracket escape, and any other
text itself. -/
inductive Unwraps : List Char → List Char → Prop where
  | escape {content : List Char} (h : IsContent content) :
      Unwraps ('[' :: (content ++ [']'])) content
  | plain {chars : List Char}
      (h : ∀ content, IsContent content → chars ≠ '[' :: (content ++ [']'])) :
      Unwraps chars chars

/-- A text is unwrapped only if it is a single bracket escape. -/
theorem unwraps_unwrapped (chars : List Char) : Unwraps chars (unwrapped chars) := by
  unfold unwrapped
  split
  · next content hread =>
      obtain ⟨rfl, hcontent⟩ := bracket?_eq_some_iff.mp hread
      exact .escape hcontent
  · next hother =>
      refine .plain fun content hcontent => ?_
      rintro rfl
      exact hother content (bracket?_eq_some_iff.mpr ⟨rfl, hcontent⟩)

/-- Behind marks, one equals sign is passed over. -/
theorem leftBehind_afterEquals {front : List Char} (h : front ≠ []) (rest : List Char) :
    LeftBehind front rest (afterEquals rest) := by
  unfold afterEquals
  split
  · exact .equals h
  · next hother =>
      refine .all (Or.inr fun hhead => ?_)
      obtain ⟨tail, rfl⟩ := List.head?_eq_some_iff.mp hhead
      exact hother tail rfl

/-! ## Both scans -/

/-- How a text is taken apart into a statement by pieces in front of it, which are read as tokens
and at most one media alias, and by the rest. -/
structure TakenApart (chars : List Char) (pieces : List Piece) (rest : List Char)
    (statement : Statement) : Prop where
  reads : Reads chars pieces rest
  lossless : chars = pieces.flatMap (·.text) ++ rest
  kinds : ∀ piece ∈ pieces, piece.mark.selector?.isSome ∨ piece.mark.media?.isSome
  selectors : statement.selectors = pieces.filterMap (·.mark.selector?)
  media : statement.media.toList = pieces.filterMap (·.mark.media?)
  noToken : pseudo? rest = none ∧ combinator? rest = none
  noMedia : statement.media = none → media? rest = none
  value : ∃ left, LeftBehind (pieces.flatMap (·.text)) rest left ∧
    Unwraps left statement.value.toList

/-- A statement of a selector is taken apart by the pieces that are read in front of it. -/
theorem exists_takenApart_parseScoped (text : String) :
    ∃ pieces rest, TakenApart text.toList pieces rest (parseScoped text) := by
  obtain ⟨pieces, hreads, hmarks⟩ := exists_reads_leading false text.toList
  obtain ⟨hmedia, _, hkinds⟩ := kinds_leading false text.toList
  obtain ⟨htoken, hnomedia⟩ := stops_leading false text.toList
  have hparse : parseScoped text =
      let rest := (leading false text.toList).2
      ⟨selectorsOf (pieces.map (·.mark)), mediaOf (pieces.map (·.mark)),
        String.ofList (unwrapped (if pieces.isEmpty then rest else afterEquals rest))⟩ := by
    rw [← List.isEmpty_map, hmarks]
    rfl
  rw [← hmarks] at hmedia hkinds hnomedia
  refine ⟨pieces, (leading false text.toList).2, ?_⟩
  rw [hparse]
  refine ⟨hreads, hreads.eq_append, fun piece hpiece => hkinds _ (List.mem_map_of_mem hpiece),
    List.filterMap_map, ?_,
    ⟨eq_none_of_shape .pseudo htoken rfl, eq_none_of_shape .combinator htoken rfl⟩,
    fun h => eq_none_of_shape .media (hnomedia rfl h) rfl, ?_⟩
  · rw [← hmedia, List.filterMap_map]
    rfl
  · refine ⟨_, ?_, by rw [String.toList_ofList]; exact unwraps_unwrapped _⟩
    cases pieces with
    | nil => exact .all (Or.inl rfl)
    | cons piece others =>
        have hfront : (piece :: others).flatMap (·.text) ≠ [] := by
          have hne := hreads.text_ne_nil piece List.mem_cons_self
          simp [hne]
        exact leftBehind_afterEquals hfront _

/-- The scan in front is a restriction of the scan of the whole text. It takes pieces one behind the
other, which are read as tokens and at most one media alias; the rest does not begin with another
token, nor with a media alias if none was taken. The value is what is left of the rest without one
equals sign, if a piece was taken, and without the brackets of a single bracket escape; nothing else
is left out. The scan of the whole text takes the same tokens first, and the same media alias if
there is one. -/
theorem parseScoped_takes_first_marks (text : String) :
    (∃ pieces rest, TakenApart text.toList pieces rest (parseScoped text)) ∧
      (parseScoped text).selectors <+: (parse text).selectors ∧
      ∀ name ∈ (parseScoped text).media, (parse text).media = some name := by
  obtain ⟨pieces, rest, h⟩ := exists_takenApart_parseScoped text
  have hmarks := h.reads.marks_eq
  refine ⟨⟨pieces, rest, h⟩, ⟨selectorsOf (marks rest), ?_⟩, fun name hname => ?_⟩
  · show _ = selectorsOf (marks text.toList)
    rw [h.selectors, hmarks, selectorsOf, selectorsOf, List.filterMap_append, List.filterMap_map]
    rfl
  · have hfirst : (pieces.map (·.mark)).findSome? Mark.media? = some name := by
      have hmedia := h.media
      rw [Option.mem_def.mp hname] at hmedia
      rw [List.findSome?_map, ← List.head?_filterMap]
      exact congrArg List.head? hmedia.symm
    show mediaOf (marks text.toList) = some name
    rw [hmarks, mediaOf, List.findSome?_append, hfirst, Option.some_or]

/-- A second media alias ends the marks in front, so the equals sign behind it is not left out. -/
example : parseScoped ":hover@md@lg=x" = ⟨[.named "hover"], some "md", "@lg=x"⟩ := by
  decide +kernel

end StyleProps.Statement
