import StyleProps.Proofs.LeadingMarks
import StyleProps.Proofs.Seams

/-!
# Opaque bracket escapes

The value of a statement is the content of its first bracket escape, and the escape is meant to keep
its content from being read as tokens or as a media alias. Here a statement is compared with the one
that has another content in that escape.

* **Texts apart.** Reading marks in a text and in a text behind it comes to the same as reading both
  together, as long as no mark reaches from one into the other (`marks_append`). `Apart` lists the
  marks that could.
* **Open parameters.** Where the text behind begins with an opening bracket, the only mark that can
  reach into it is a pseudo token with a parameter that is not closed (`LeavesParameterOpen`).
* **Escapes.** The main result, `parse_escaped`, says that the escape is opaque exactly if there is
  no such parameter in front of it. With one, the content tells whether the parameter is closed.
-/

namespace StyleProps.Statement

/-! ## Texts apart -/

/-- Whether the first parenthesis of a text is a closing one. -/
def ClosesFirst (chars : List Char) : Prop :=
  chars.find? isParenthesis = some ')'

/-- Whether a text ends in a pseudo token with a parameter that is not closed. -/
def LeavesParameterOpen (chars : List Char) : Prop :=
  ∃ (start : List Char) (name : String) (param : List Char),
    chars = start ++ ':' :: (name.toList ++ '(' :: param) ∧ IsWordText name ∧
      ∀ c ∈ param, isParenthesis c = false

/-- A text leaves a parameter open if the end of it does. -/
theorem LeavesParameterOpen.of_suffix {whole chars : List Char} (h : LeavesParameterOpen chars)
    (hsuffix : chars <:+ whole) : LeavesParameterOpen whole := by
  obtain ⟨start, name, param, rfl, hname, hparam⟩ := h
  obtain ⟨before, rfl⟩ := hsuffix
  exact ⟨before ++ start, name, param, by simp, hname, hparam⟩

/-- Whether no mark of a text reaches into the text behind it. -/
structure Apart (front back : List Char) : Prop where
  /-- No word goes on, and no parameter begins. -/
  ends : EndsMark back
  /-- No combinator finds its symbol or its target behind further blanks. -/
  noTarget : ∀ c ∈ back.head?, isBlank c = false ∧ Combinator.ofSymbol? c = none
  /-- No pseudo token begins with the last character. -/
  noName : front.getLast? = some ':' → pseudo? (':' :: back) = none
  /-- No bracket escape is closed. -/
  seam : Seam front back
  /-- No parameter is closed. -/
  noParameter : LeavesParameterOpen front → ¬ ClosesFirst back

/-- The end of a text reaches no further than the text. -/
theorem Apart.of_suffix {whole front back : List Char} (h : Apart whole back)
    (hsuffix : front <:+ whole) : Apart front back := by
  refine ⟨h.ends, h.noTarget, fun hlast => h.noName ?_, h.seam.of_suffix hsuffix,
    fun hopen => h.noParameter (hopen.of_suffix hsuffix)⟩
  obtain ⟨start, rfl⟩ := hsuffix
  rw [List.getLast?_append, hlast, Option.some_or]

/-- What was read, in front of more text. -/
def before {α : Type} (back : List Char) (read : Option (α × List Char)) :
    Option (α × List Char) :=
  read.map fun (value, after) => (value, after ++ back)

/-- Nothing is read in front of more text either. -/
@[simp] theorem before_none {α : Type} (back : List Char) :
    before back (none : Option (α × List Char)) = none :=
  rfl

/-- Only what is left becomes longer. -/
@[simp] theorem before_some {α : Type} (back : List Char) (value : α) (after : List Char) :
    before back (some (value, after)) = some (value, after ++ back) :=
  rfl

/-- Something is read in front of more text only if it is read by itself. -/
@[simp] theorem before_eq_none_iff {α : Type} {back : List Char} {read : Option (α × List Char)} :
    before back read = none ↔ read = none :=
  Option.map_eq_none_iff

/-- What was read can be turned into something else first. -/
theorem before_map {α β : Type} (f : α → β) (back : List Char) (read : Option (α × List Char)) :
    before back (read.map fun (value, after) => (f value, after)) =
      (before back read).map fun (value, after) => (f value, after) := by
  cases read <;> rfl

/-- A word is read in front of a text that does not continue it. -/
theorem word?_before {back : List Char} (h : ∀ c ∈ back.head?, isWord c = false)
    (chars : List Char) : word? (chars ++ back) = before back (word? chars) := by
  obtain ⟨htake, hdrop⟩ := Text.span_append_of_stop chars fun _ => h
  rw [word?, htake, hdrop, word?]
  cases chars.takeWhile isWord <;> rfl

/-- Without parentheses in front, the first parenthesis of a text is that of its end. -/
theorem closesFirst_append {front : List Char} (h : ∀ c ∈ front, isParenthesis c = false)
    (back : List Char) : ClosesFirst (front ++ back) ↔ ClosesFirst back := by
  have hnone : front.find? isParenthesis = none := by simpa using h
  rw [ClosesFirst, List.find?_append, hnone, Option.none_or, ClosesFirst]

/-- A parameter that is not closed is not read. -/
theorem parameter?_of_not_closesFirst {chars : List Char} (h : ¬ ClosesFirst chars) :
    parameter? ('(' :: chars) = none := by
  rw [ClosesFirst, List.find?_eq_head?_dropWhile_not] at h
  unfold parameter?
  split
  · next rest heq =>
      obtain rfl := (List.cons.inj heq).2
      split
      · next hdrop => exact absurd (by rw [hdrop]; rfl) h
      · rfl
  · rfl

/-- A parameter is read in front of a text that does not begin or close one. -/
theorem parameter?_before {chars back : List Char} (hends : ∀ c ∈ back.head?, c ≠ '(')
    (hopen : ∀ param, chars = '(' :: param → (∀ c ∈ param, isParenthesis c = false) →
      ¬ ClosesFirst back) :
    parameter? (chars ++ back) = before back (parameter? chars) := by
  cases chars with
  | nil => exact parameter?_eq_none hends
  | cons c rest =>
      by_cases hc : c = '('
      case neg =>
        rw [parameter?_eq_none (by simpa using hc), parameter?_eq_none (by simpa using hc),
          before_none]
      subst hc
      by_cases hfree : ∀ d ∈ rest, isParenthesis d = false
      · have hnone : ¬ ClosesFirst rest := by
          have hiff := closesFirst_append hfree []
          rw [List.append_nil] at hiff
          rw [hiff]
          exact fun h => nomatch h
        have hboth : ¬ ClosesFirst (rest ++ back) := by
          rw [closesFirst_append hfree]
          exact hopen rest rfl hfree
        rw [List.cons_append, parameter?_of_not_closesFirst hboth,
          parameter?_of_not_closesFirst hnone, before_none]
      · -- The parameter ends in the text itself, one way or the other.
        have hstop : (∀ d ∈ rest, (!isParenthesis d) = true) →
            ∀ d ∈ back.head?, (!isParenthesis d) = false :=
          fun hall => absurd (fun d hd => by simpa using hall d hd) hfree
        obtain ⟨htake, hdrop⟩ := Text.span_append_of_stop rest hstop
        simp only [List.cons_append, parameter?, htake, hdrop]
        cases hafter : rest.dropWhile (!isParenthesis ·) with
        | nil =>
            refine absurd (fun d hd => ?_) hfree
            simpa using List.dropWhile_eq_nil_iff.mp hafter d hd
        | cons d after =>
            by_cases hd : d = ')'
            · simp [hd]
            · simp [hd]

/-- A name is read in front of a text, with the parameter behind it. -/
theorem pseudoName?_before {chars back : List Char} (hends : EndsMark back)
    (hopen : LeavesParameterOpen (':' :: chars) → ¬ ClosesFirst back) :
    pseudoName? (chars ++ back) = before back (pseudoName? chars) := by
  rw [pseudoName?, word?_before (fun c hc => (hends c hc).1), pseudoName?]
  cases hword : word? chars with
  | none => rfl
  | some found =>
      obtain ⟨name, after⟩ := found
      have hafter : parameter? (after ++ back) = before back (parameter? after) := by
        refine parameter?_before (fun c hc => (hends c hc).2) fun param heq hfree => hopen ?_
        rw [eq_of_word? hword, heq]
        exact ⟨[], name, param, rfl, isWordText_of_word? hword, hfree⟩
      simp only [before_some, hafter]
      cases parameter? after <;> rfl

/-- A pseudo token is read in front of a text. -/
theorem pseudo?_before {rest back : List Char} (h : Apart (':' :: rest) back) :
    pseudo? (':' :: (rest ++ back)) = before back (pseudo? (':' :: rest)) := by
  cases rest with
  | nil => exact h.noName rfl
  | cons c tail =>
      by_cases hc : c = ':'
      · subst hc
        exact pseudoName?_before h.ends fun hopen =>
          h.noParameter (hopen.of_suffix (List.suffix_cons ':' (':' :: tail)))
      · have hone : ∀ more, pseudo? (':' :: c :: more) = pseudoName? (c :: more) := by
          intro more
          simp [pseudo?, hc]
        rw [List.cons_append, hone, hone]
        exact pseudoName?_before h.ends h.noParameter

/-- The symbol of a combinator is read in front of a text that begins with no blank or symbol. -/
theorem symbol?_before {back : List Char}
    (h : ∀ c ∈ back.head?, isBlank c = false ∧ Combinator.ofSymbol? c = none)
    (chars : List Char) : symbol? (chars ++ back) = before back (symbol? chars) := by
  obtain ⟨htake, hdrop⟩ := Text.span_append_of_stop chars fun _ c hc => (h c hc).1
  rcases symbol_or_none chars with ⟨c, joint, after, hafter, hne, hsymbol⟩ | hnone
  · rw [hafter, List.cons_append] at hdrop
    rw [symbol?_of_ofSymbol? hdrop hne hsymbol, symbol?_of_ofSymbol? hafter hne hsymbol,
      before_some]
  · have hboth : ∀ c ∈ ((chars ++ back).dropWhile isBlank).head?,
        Combinator.ofSymbol? c = none := by
      rw [hdrop]
      cases hafter : chars.dropWhile isBlank with
      | nil => exact fun c hc => (h c hc).2
      | cons d after => exact fun c hc => hnone c (by rw [hafter]; exact hc)
    rw [symbol?_of_none hboth, symbol?_of_none hnone, htake, hdrop]
    split <;> rfl

/-- A combinator token is read in front of a text. -/
theorem combinator?_before {rest back : List Char} (h : Apart ('&' :: rest) back) :
    combinator? ('&' :: (rest ++ back)) = before back (combinator? ('&' :: rest)) := by
  simp only [combinator?, symbol?_before h.noTarget]
  cases symbol? rest with
  | none => rfl
  | some found =>
      obtain ⟨joint, after⟩ := found
      obtain ⟨_, hdrop⟩ := Text.span_append_of_stop after fun _ c hc => (h.noTarget c hc).1
      simp only [before_some, hdrop, word?_before fun c hc => (h.ends c hc).1, before_map]

/-- A bracket escape is read in front of a text. -/
theorem bracket?_before {front back : List Char} (hne : front ≠ []) (h : Seam front back) :
    bracket? (front ++ back) = before back (bracket? front) := by
  cases hread : bracket? front with
  | none => exact bracket?_append_of_none hread hne h
  | some found => exact bracket?_append_of_some hread back

/-- A mark is read in front of a text. -/
theorem lex?_before {front back : List Char} (hne : front ≠ []) (h : Apart front back) :
    Mark.lex? (front ++ back) = before back (Mark.lex? front) := by
  cases front with
  | nil => exact absurd rfl hne
  | cons c rest =>
      rw [List.cons_append]
      by_cases hescape : c = '['
      · subst hescape
        have hread : bracket? ('[' :: (rest ++ back)) = before back (bracket? ('[' :: rest)) :=
          bracket?_before hne h.seam
        simp only [Mark.lex?, hread, before_map]
      by_cases hpseudo : c = ':'
      · subst hpseudo
        simp only [Mark.lex?, pseudo?_before h, before_map]
      by_cases hcombinator : c = '&'
      · subst hcombinator
        simp only [Mark.lex?, combinator?_before h, before_map]
      by_cases hmedia : c = '@'
      · subst hmedia
        have hread := word?_before (fun c hc => (h.ends c hc).1) rest
        simp only [Mark.lex?, Statement.media?, hread, before_map]
      have hnone : ∀ more, Mark.lex? (c :: more) = none :=
        lex?_eq_none (by simp [hescape, hpseudo, hcombinator, hmedia])
      rw [hnone, hnone, before_none]

/-- The marks of two texts that are apart are those of both. -/
theorem marks_append {front back : List Char} (h : Apart front back) :
    marks (front ++ back) = marks front ++ marks back := by
  fun_induction marks front with
  | case1 => rfl
  | case2 c rest mark after hlex ih =>
      have hread := lex?_before (List.cons_ne_nil c rest) h
      obtain ⟨text, htext⟩ := exists_append_of_lex? hlex
      rw [hlex, before_some] at hread
      rw [marks_of_lex? hread, ih (h.of_suffix ⟨text, htext.symm⟩), List.cons_append]
  | case3 c rest hlex ih =>
      have hread := lex?_before (List.cons_ne_nil c rest) h
      rw [hlex, before_none, List.cons_append] at hread
      rw [List.cons_append, marks_cons_of_none hread, ih (h.of_suffix (List.suffix_cons c rest))]

/-! ## The first bracket escape -/

/-- A text with a bracket escape in it. -/
def escaped (front content back : List Char) : String :=
  String.ofList (front ++ '[' :: (content ++ ']' :: back))

/-- There is no escape in a text if none begins at its first character and none is in the rest. -/
theorem firstBracket?_cons_eq_none_iff {c : Char} {rest : List Char} :
    firstBracket? (c :: rest) = none ↔ bracket? (c :: rest) = none ∧ firstBracket? rest = none := by
  rw [firstBracket?]
  cases bracket? (c :: rest) <;> simp

/-- If there is no escape in a text, there is none in the end of it. -/
theorem firstBracket?_of_append {front back : List Char}
    (h : firstBracket? (front ++ back) = none) : firstBracket? back = none := by
  induction front with
  | nil => exact h
  | cons c rest ih => exact ih (firstBracket?_cons_eq_none_iff.mp h).2

/-- No escape begins in front of an opening bracket if none begins there without it. -/
theorem bracket?_cons_append_open {c : Char} {front back : List Char} :
    bracket? (c :: (front ++ '[' :: back)) = none ↔ bracket? (c :: front) = none := by
  have hread := bracket?_before (List.cons_ne_nil c front) (seam_cons_open _ back)
  rw [List.cons_append] at hread
  rw [hread, before_eq_none_iff]

/-- An escape is the first one of a text exactly if there is none in the text in front of it. -/
theorem firstBracket?_eq_some_iff {chars content : List Char} :
    firstBracket? chars = some content ↔
      ∃ front back, chars = front ++ '[' :: (content ++ ']' :: back) ∧ IsContent content ∧
        firstBracket? front = none := by
  constructor
  · intro h
    induction chars with
    | nil => cases h
    | cons c rest ih =>
        rw [firstBracket?] at h
        split at h
        · next found back hread =>
            obtain rfl := Option.some.inj h
            obtain ⟨htext, hcontent⟩ := bracket?_eq_some_iff.mp hread
            exact ⟨[], back, htext, hcontent, rfl⟩
        · next hread =>
            obtain ⟨front, back, rfl, hcontent, hfront⟩ := ih h
            exact ⟨c :: front, back, rfl, hcontent,
              firstBracket?_cons_eq_none_iff.mpr ⟨bracket?_cons_append_open.mp hread, hfront⟩⟩
  · rintro ⟨front, back, rfl, hcontent, hfront⟩
    induction front with
    | nil => rw [List.nil_append, firstBracket?, bracket?_append hcontent.1 hcontent.2]
    | cons c rest ih =>
        obtain ⟨hread, hrest⟩ := firstBracket?_cons_eq_none_iff.mp hfront
        rw [List.cons_append, firstBracket?, bracket?_cons_append_open.mpr hread]
        exact ih hrest

/-- If there is no escape in two texts together, none reaches from one into the other, provided that
the second one does not close a bracket at once. -/
theorem seam_of_firstBracket? {front back : List Char} (h : firstBracket? (front ++ back) = none)
    (hback : back.head? ≠ some ']') : Seam front back := by
  by_contra hnot
  obtain ⟨start, inner, outer, rest, rfl, rfl, hfree⟩ := exists_of_not_seam hnot
  have hne : inner ++ outer ≠ [] := by
    intro hnil
    rw [(List.append_eq_nil_iff.mp hnil).2] at hback
    exact hback rfl
  have hread := bracket?_append hne hfree rest
  have htext : (start ++ '[' :: inner) ++ (outer ++ ']' :: rest) =
      start ++ '[' :: ((inner ++ outer) ++ ']' :: rest) := by simp
  rw [htext] at h
  cases hread.symm.trans (firstBracket?_cons_eq_none_iff.mp (firstBracket?_of_append h)).1

/-! ## Escapes that are opaque -/

/-- No name begins with a character that is not of a word. -/
theorem pseudoName?_cons_of_not {c : Char} (h : isWord c = false) (rest : List Char) :
    pseudoName? (c :: rest) = none := by
  rw [pseudoName?, word?_cons_of_not h]

/-- Only by a parameter that it leaves open does a text reach behind an opening bracket. -/
theorem apart_cons_open {front : List Char} (h : ¬ LeavesParameterOpen front) (back : List Char) :
    Apart front ('[' :: back) where
  ends := endsMark_cons (by decide) (by decide)
  noTarget c hc := by
    obtain rfl := Option.some.inj hc
    decide
  noName _ := show pseudoName? ('[' :: back) = none from pseudoName?_cons_of_not (by decide) back
  seam := seam_cons_open front back
  noParameter hopen := absurd hopen h

/-- An escape adds nothing to the tokens and the media alias of the marks around it. -/
theorem selectorsOf_mediaOf_bracket (front back : List Mark) (content : List Char) :
    selectorsOf (front ++ .bracket content :: back) = selectorsOf (front ++ back) ∧
      mediaOf (front ++ .bracket content :: back) = mediaOf (front ++ back) := by
  rw [selectorsOf, selectorsOf, mediaOf, mediaOf, List.filterMap_append, List.filterMap_append,
    List.findSome?_append, List.findSome?_append]
  exact ⟨rfl, rfl⟩

/-- The value of a statement is the content of its first escape. -/
theorem value_escaped {front content : List Char} (hfront : firstBracket? front = none)
    (hcontent : IsContent content) (back : List Char) :
    (parse (escaped front content back)).value = String.ofList content := by
  have hfirst := firstBracket?_eq_some_iff.mpr ⟨front, back, rfl, hcontent, hfront⟩
  simp only [parse, escaped, String.toList_ofList, rawValue, hfirst]

/-- Behind a text that leaves no parameter open, an escape is opaque: tokens and media alias are
those of the texts around it, read apart. -/
theorem parse_escaped_of_closed {front content : List Char} (hfront : firstBracket? front = none)
    (hcontent : IsContent content) (hclosed : ¬ LeavesParameterOpen front) (back : List Char) :
    parse (escaped front content back) =
      ⟨selectorsOf (marks front ++ marks back), mediaOf (marks front ++ marks back),
        String.ofList content⟩ := by
  have hmarks : marks (front ++ '[' :: (content ++ ']' :: back)) =
      marks front ++ .bracket content :: marks back := by
    rw [marks_append (apart_cons_open hclosed _),
      marks_of_lex? (lex?_bracket hcontent.1 hcontent.2 back)]
  obtain ⟨hselectors, hmedia⟩ := selectorsOf_mediaOf_bracket (marks front) (marks back) content
  rw [← value_escaped hfront hcontent back, ← hselectors, ← hmedia, ← hmarks]
  simp only [parse, escaped, String.toList_ofList]

/-! ## Escapes in an open parameter -/

/-- An escape behind a seam does not reach across it. -/
theorem Seam.append_open {front back : List Char} (h : Seam front back) (more : List Char) :
    Seam front (back ++ '[' :: more) := by
  intro hlast
  have hback := h hlast
  rw [List.filter_append, List.filter_cons_of_pos rfl, List.head?_append]
  cases hfirst : (back.filter isBracket).head? with
  | none => simp
  | some c => rwa [hfirst] at hback

/-- A parameter that is left open belongs to a pseudo token with one colon, or with two. -/
theorem LeavesParameterOpen.exists_colons {front : List Char} (h : LeavesParameterOpen front) :
    ∃ (start colons : List Char) (name : String) (param : List Char),
      front = start ++ (colons ++ (name.toList ++ '(' :: param)) ∧
      (colons = [':'] ∧ start.getLast? ≠ some ':' ∨ colons = [':', ':']) ∧ IsWordText name ∧
      ∀ c ∈ param, isParenthesis c = false := by
  obtain ⟨start, name, param, rfl, hname, hparam⟩ := h
  by_cases hlast : start.getLast? = some ':'
  · obtain ⟨start, rfl⟩ := List.getLast?_eq_some_iff.mp hlast
    exact ⟨start, [':', ':'], name, param, by simp, Or.inr rfl, hname, hparam⟩
  · exact ⟨start, [':'], name, param, rfl, Or.inl ⟨rfl, hlast⟩, hname, hparam⟩

/-- Behind its colons, a pseudo token is read by its name. -/
theorem lex?_colons {colons : List Char} (h : colons = [':'] ∨ colons = [':', ':']) {name : String}
    (hname : IsWordText name) (rest : List Char) :
    Mark.lex? (colons ++ (name.toList ++ rest)) =
      (pseudoName? (name.toList ++ rest)).map fun (token, after) => (.selector token, after) := by
  rcases h with rfl | rfl
  · rw [← pseudo?_of_isWord hname]
    rfl
  · rfl

/-- No parenthesis stands in a word. -/
theorem isParenthesis_of_isWord {c : Char} (h : isWord c = true) : isParenthesis c = false := by
  simp only [isParenthesis, Bool.or_eq_false_iff, decide_eq_false_iff_not]
  exact ⟨ne_of_isWord h (by decide), ne_of_isWord h (by decide)⟩

/-- The pseudo token of a parameter that is left open is apart from the text in front of it. -/
theorem apart_colons {start colons param : List Char} {name : String}
    (hfront : firstBracket? (start ++ (colons ++ (name.toList ++ '(' :: param))) = none)
    (hcolons : colons = [':'] ∧ start.getLast? ≠ some ':' ∨ colons = [':', ':'])
    (hname : IsWordText name) (more : List Char) :
    Apart start (colons ++ (name.toList ++ '(' :: (param ++ '[' :: more))) := by
  have hfirst : ∀ rest, ∀ c ∈ (colons ++ rest).head?, c = ':' := by
    intro rest c hc
    rcases hcolons with ⟨rfl, _⟩ | rfl <;> exact (Option.some.inj hc).symm
  have hfree : ∀ c ∈ colons ++ name.toList, isParenthesis c = false := by
    intro c hc
    rcases List.mem_append.mp hc with hcolon | hword
    · have hc : c = ':' := by rcases hcolons with ⟨rfl, _⟩ | rfl <;> simpa using hcolon
      rw [hc]
      decide
    · exact isParenthesis_of_isWord (hname.2 c hword)
  constructor
  case ends =>
    intro c hc
    rw [hfirst _ c hc]
    decide
  case noTarget =>
    intro c hc
    rw [hfirst _ c hc]
    decide
  case noName =>
    intro hlast
    rcases hcolons with ⟨rfl, hne⟩ | rfl
    · exact absurd hlast hne
    · show pseudoName? (':' :: (name.toList ++ '(' :: (param ++ '[' :: more))) = none
      exact pseudoName?_cons_of_not (by decide) _
  case seam =>
    have hclose : (colons ++ (name.toList ++ '(' :: param)).head? ≠ some ']' := by
      intro h
      cases hfirst _ _ h
    simpa using (seam_of_firstBracket? hfront hclose).append_open more
  case noParameter =>
    intro _
    rw [← List.append_assoc, closesFirst_append hfree]
    simp [ClosesFirst, isParenthesis]

/-- Of a text that leaves a parameter open, the pseudo token of that parameter is read apart from
the text in front of it. -/
theorem exists_selectors_of_open {front : List Char} (hfront : firstBracket? front = none)
    (h : LeavesParameterOpen front) :
    ∃ (start : List Char) (name : String) (param : List Char), IsWordText name ∧
      (∀ c ∈ param, isParenthesis c = false) ∧ ∀ more token after,
        pseudoName? (name.toList ++ '(' :: (param ++ '[' :: more)) = some (token, after) →
        selectorsOf (marks (front ++ '[' :: more)) =
          selectorsOf (marks start) ++ token :: selectorsOf (marks after) := by
  obtain ⟨start, colons, name, param, rfl, hcolons, hname, hparam⟩ := h.exists_colons
  refine ⟨start, name, param, hname, hparam, fun more token after hread => ?_⟩
  have hlex := lex?_colons (hcolons.imp_left And.left) hname ('(' :: (param ++ '[' :: more))
  rw [hread, Option.map_some] at hlex
  have htext : start ++ (colons ++ (name.toList ++ '(' :: param)) ++ '[' :: more =
      start ++ (colons ++ (name.toList ++ '(' :: (param ++ '[' :: more))) := by simp
  rw [htext, marks_append (apart_colons hfront hcolons hname more), marks_of_lex? hlex, selectorsOf,
    List.filterMap_append]
  rfl

/-- Behind a text that leaves a parameter open, an escape is not opaque: it closes the parameter if
it holds a closing parenthesis, and does not if it holds an opening one. -/
theorem selectors_ne_of_open {front : List Char} (hfront : firstBracket? front = none)
    (h : LeavesParameterOpen front) (back : List Char) :
    (parse (escaped front [')'] back)).selectors ≠
      (parse (escaped front ['('] back)).selectors := by
  obtain ⟨start, name, param, hname, hparam, hselectors⟩ := exists_selectors_of_open hfront h
  have hfree : ∀ c ∈ param ++ ['['], isParenthesis c = false := by
    intro c hc
    rcases List.mem_append.mp hc with hmem | hmem
    · exact hparam c hmem
    · rw [List.mem_singleton.mp hmem]
      decide
  have hclosing : pseudoName? (name.toList ++ '(' :: (param ++ '[' :: ')' :: ']' :: back)) =
      some (.functional name (String.ofList (param ++ ['['])), ']' :: back) := by
    have hspelled : FreeOf ['(', ')'] (String.ofList (param ++ ['['])) := by
      intro c hc
      rw [String.toList_ofList] at hc
      simpa [isParenthesis] using hfree c hc
    simpa using pseudoName?_functional hname hspelled (']' :: back)
  have hopening : pseudoName? (name.toList ++ '(' :: (param ++ '[' :: '(' :: ']' :: back)) =
      some (.named name, '(' :: (param ++ '[' :: '(' :: ']' :: back)) := by
    have hnot : ¬ ClosesFirst ((param ++ ['[']) ++ '(' :: ']' :: back) := by
      rw [closesFirst_append hfree]
      simp [ClosesFirst, isParenthesis]
    refine pseudoName?_named hname (fun c hc => ?_) ?_
    · obtain rfl := Option.some.inj hc
      decide
    · simpa using parameter?_of_not_closesFirst hnot
  simp only [parse, escaped, String.toList_ofList, List.cons_append, List.nil_append,
    hselectors _ _ _ hclosing, hselectors _ _ _ hopening]
  intro heq
  cases (List.cons.inj (List.append_cancel_left heq)).1

/-- The value of a statement with a bracket escape is the content of its first one, whatever is put
there. If the text in front of the escape leaves no parameter open, the escape is opaque: with any
content, the tokens and the media alias are those of the texts around it, read apart. If it does
leave one open, the escape is not opaque: there is a content with which other tokens are read. -/
theorem parse_escaped {text : String} {content : List Char}
    (h : firstBracket? text.toList = some content) :
    ∃ front back, text = escaped front content back ∧ IsContent content ∧
      firstBracket? front = none ∧
      (∀ other, IsContent other →
        (parse (escaped front other back)).value = String.ofList other) ∧
      (¬ LeavesParameterOpen front → ∀ other, IsContent other →
        parse (escaped front other back) =
          ⟨selectorsOf (marks front ++ marks back), mediaOf (marks front ++ marks back),
            String.ofList other⟩) ∧
      (LeavesParameterOpen front → ∃ other, IsContent other ∧
        (parse (escaped front other back)).selectors ≠ (parse text).selectors) := by
  obtain ⟨front, back, htext, hcontent, hfront⟩ := firstBracket?_eq_some_iff.mp h
  have hescaped : text = escaped front content back := by
    rw [escaped, ← htext, String.ofList_toList]
  refine ⟨front, back, hescaped, hcontent, hfront,
    fun other hother => value_escaped hfront hother back,
    fun hclosed other hother => parse_escaped_of_closed hfront hother hclosed back, fun hopen => ?_⟩
  -- The tokens differ between the two parentheses, so those of the text differ from one of them.
  have hne := selectors_ne_of_open hfront hopen back
  by_cases hclosing : (parse (escaped front [')'] back)).selectors = (parse text).selectors
  · exact ⟨['('], by decide, fun hopening => hne (hclosing.trans hopening.symm)⟩
  · exact ⟨[')'], by decide, hclosing⟩

/-- A closed parameter and a combinator in front of an escape, and a media alias behind it. -/
theorem parse_escaped_hover :
    firstBracket? ":not(p)&>em[:focus]@md".toList = some ":focus".toList ∧
      ∃ front back, ":not(p)&>em[:focus]@md" = escaped front ":focus".toList back ∧
        IsContent ":focus".toList ∧ firstBracket? front = none ∧
        (∀ other, IsContent other →
          (parse (escaped front other back)).value = String.ofList other) ∧
        (¬ LeavesParameterOpen front → ∀ other, IsContent other →
          parse (escaped front other back) =
            ⟨selectorsOf (marks front ++ marks back), mediaOf (marks front ++ marks back),
              String.ofList other⟩) ∧
        (LeavesParameterOpen front → ∃ other, IsContent other ∧
          (parse (escaped front other back)).selectors ≠
            (parse ":not(p)&>em[:focus]@md").selectors) :=
  ⟨by decide, parse_escaped (by decide)⟩

/-- In an open parameter, the content of an escape is read: it ends the parameter, which takes the
opening bracket with it, and gives another token and a media alias. -/
theorem parse_reads_into_escape :
    parse (escaped ":not(".toList "x".toList []) = ⟨[.named "not"], none, "x"⟩ ∧
      parse (escaped ":not(".toList "x):hover@md".toList []) =
        ⟨[.functional "not" "[x", .named "hover"], some "md", "x):hover@md"⟩ := by
  decide +kernel

end StyleProps.Statement
