import StyleProps.Proofs.Splitting

/-!
# Writing statements

A statement is written as its selector tokens, its media alias, an equals sign, and its value in
brackets unless it is empty; statements are joined by bars. The main result,
`parse_split_printAll`, says that splitting and reading a written list of statements gives the list
back, and that every statement that is read can be written and read again if no bracket or bar
stands in its parameters and no bracket in its value.
-/

namespace StyleProps

/-- Whether a token can be written inside a style text: it is well spelled, and its parameter has
neither brackets nor bars. -/
structure SelectorToken.Printable (token : SelectorToken) : Prop extends token.WellSpelled where
  separate : ∀ param ∈ token.param?, FreeOf ['[', ']', '|'] param

/-- Tokens that can be written can be told by looking at their texts. -/
instance (token : SelectorToken) : Decidable token.Printable :=
  decidable_of_iff (token.WellSpelled ∧ ∀ param ∈ token.param?, FreeOf ['[', ']', '|'] param)
    ⟨fun ⟨hspelled, hseparate⟩ => ⟨hspelled, hseparate⟩,
      fun h => ⟨h.toWellSpelled, h.separate⟩⟩

namespace Statement

/-- The text of a media alias; empty if there is none. -/
def mediaText : Option String → String
  | none => ""
  | some name => "@" ++ name

/-- The texts of selector tokens and of a media alias, one after the other. -/
def leadText (tokens : List SelectorToken) (media : Option String) : String :=
  String.join (tokens.map SelectorToken.text) ++ mediaText media

/-- A value in brackets; nothing for the empty value. -/
def escapeText (value : String) : String :=
  if value = "" then "" else "[" ++ value ++ "]"

/-- The text of a statement. -/
def print (statement : Statement) : String :=
  leadText statement.selectors statement.media ++ "=" ++ escapeText statement.value

/-- The text of a list of statements. -/
def printAll (statements : List Statement) : String :=
  String.ofList (Text.join '|' (statements.map fun statement => statement.print.toList))

/-- Whether a statement can be written: its tokens can, its media alias is a word, and its value has
no brackets. -/
structure Printable (statement : Statement) : Prop where
  selectors : ∀ token ∈ statement.selectors, token.Printable
  media : ∀ name ∈ statement.media, IsWordText name
  value : FreeOf ['[', ']'] statement.value

/-- Statements that can be written can be told by looking at their texts. -/
instance (statement : Statement) : Decidable statement.Printable :=
  decidable_of_iff ((∀ token ∈ statement.selectors, token.Printable) ∧
      (∀ name ∈ statement.media, IsWordText name) ∧ FreeOf ['[', ']'] statement.value)
    ⟨fun ⟨hselectors, hmedia, hvalue⟩ => ⟨hselectors, hmedia, hvalue⟩,
      fun h => ⟨h.selectors, h.media, h.value⟩⟩

/-- The marks of selector tokens and of a media alias. -/
def leadMarks (tokens : List SelectorToken) (media : Option String) : List Mark :=
  tokens.map Mark.selector ++ (media.map Mark.media).toList

/-! ## The text in front of a value -/

/-- A token stands in front of the others. -/
theorem toList_leadText_cons (token : SelectorToken) (tokens : List SelectorToken)
    (media : Option String) :
    (leadText (token :: tokens) media).toList =
      token.text.toList ++ (leadText tokens media).toList := by
  simp [leadText, String.toList_join]

/-- Without tokens, there is the media alias only. -/
theorem toList_leadText_nil (media : Option String) :
    (leadText [] media).toList = (mediaText media).toList := by
  simp [leadText]

/-- A media alias follows an at sign. -/
theorem toList_mediaText_append (name : String) (rest : List Char) :
    (mediaText (some name)).toList ++ rest = '@' :: (name.toList ++ rest) := by
  simp [mediaText]

/-- Tokens and a media alias end a mark in front of them if the text after them does. -/
theorem endsMark_leadText (tokens : List SelectorToken) (media : Option String) {rest : List Char}
    (hrest : EndsMark rest) : EndsMark ((leadText tokens media).toList ++ rest) := by
  cases tokens with
  | nil =>
      rw [toList_leadText_nil]
      cases media with
      | none => simpa [mediaText] using hrest
      | some name =>
          rw [toList_mediaText_append]
          exact endsMark_cons (by decide) (by decide)
  | cons token tokens =>
      rw [toList_leadText_cons]
      obtain ⟨tail, htext | htext⟩ := text_eq_cons token
      · rw [htext]
        exact endsMark_cons (by decide) (by decide)
      · rw [htext]
        exact endsMark_cons (by decide) (by decide)

/-- Written tokens and a written media alias are the first marks of a text. -/
theorem marks_leadText {tokens : List SelectorToken} {media : Option String} {rest : List Char}
    (htokens : ∀ token ∈ tokens, token.WellSpelled) (hmedia : ∀ name ∈ media, IsWordText name)
    (hrest : EndsMark rest) :
    marks ((leadText tokens media).toList ++ rest) = leadMarks tokens media ++ marks rest := by
  induction tokens with
  | nil =>
      rw [toList_leadText_nil]
      cases media with
      | none => simp [mediaText, leadMarks]
      | some name =>
          have hlex := lex?_media (hmedia name rfl) fun c hc => (hrest c hc).1
          rw [toList_mediaText_append, marks_of_lex? hlex]
          rfl
  | cons token tokens ih =>
      have hlex := lex?_token (htokens token List.mem_cons_self)
        (endsMark_leadText tokens media hrest)
      rw [toList_leadText_cons, List.append_assoc, marks_of_lex? hlex,
        ih fun other hother => htokens other (List.mem_cons_of_mem _ hother)]
      rfl

/-- A character that marks are not written with occurs in a lead only inside of parameters. -/
theorem not_mem_leadText {c : Char} {tokens : List SelectorToken} {media : Option String}
    (htokens : ∀ token ∈ tokens, token.WellSpelled) (hmedia : ∀ name ∈ media, IsWordText name)
    (hword : isWord c = false) (hmark : c ∉ [':', '(', ')', '&', ' ', '>', '~', '+', '@'])
    (hparam : ∀ token ∈ tokens, ∀ param ∈ token.param?, c ∉ param.toList) :
    c ∉ (leadText tokens media).toList := by
  have hwords : ∀ text, IsWordText text → c ∉ text.toList :=
    fun text htext => not_mem_of_isWordText htext hword
  simp only [List.mem_cons, List.not_mem_nil, or_false, not_or] at hmark
  obtain ⟨hcolon, hopen, hclose, hampersand, hspace, hchild, hgeneral, hadjacent, hat⟩ := hmark
  induction tokens with
  | nil =>
      rw [toList_leadText_nil]
      cases media with
      | none => simp [mediaText]
      | some name => simp [mediaText, hat, hwords name (hmedia name rfl)]
  | cons token tokens ih =>
      have htail := ih (fun other hother => htokens other (List.mem_cons_of_mem _ hother))
        fun other hother => hparam other (List.mem_cons_of_mem _ hother)
      have hspelled := hwords _ (htokens token List.mem_cons_self).word
      have hparams := hparam token List.mem_cons_self
      rw [toList_leadText_cons, List.mem_append, not_or]
      refine ⟨?_, htail⟩
      cases token with
      | named name =>
          have hname : c ∉ name.toList := hspelled
          simp [SelectorToken.text, hcolon, hname]
      | functional name param =>
          have hname : c ∉ name.toList := hspelled
          have hinner : c ∉ param.toList := hparams param rfl
          simp [SelectorToken.text, hcolon, hname, hopen, hinner, hclose]
      | combinator joint target =>
          have htarget : c ∉ target.toList := hspelled
          rw [SelectorToken.text, Combinator.toList_selector]
          cases joint <;>
            simp [Combinator.symbolChars, hampersand, hspace, hchild, hgeneral, hadjacent, htarget]

/-- The selector tokens of a lead are its tokens. -/
theorem selectorsOf_leadMarks (tokens : List SelectorToken) (media : Option String)
    {rest : List Mark} (h : selectorsOf rest = []) :
    selectorsOf (leadMarks tokens media ++ rest) = tokens := by
  unfold selectorsOf at *
  rw [List.filterMap_append, h, leadMarks, List.filterMap_append, List.filterMap_map]
  cases media <;> simp [Function.comp_def, Mark.selector?]

/-- The media alias of a lead is its media alias. -/
theorem mediaOf_leadMarks (tokens : List SelectorToken) (media : Option String) {rest : List Mark}
    (h : mediaOf rest = none) : mediaOf (leadMarks tokens media ++ rest) = media := by
  unfold mediaOf at *
  rw [List.findSome?_append, h, leadMarks, List.findSome?_append, List.findSome?_map]
  have hnone : tokens.findSome? (Mark.media? ∘ Mark.selector) = none :=
    List.findSome?_eq_none_iff.mpr fun _ _ => rfl
  rw [hnone]
  cases media <;> simp [Mark.media?]

/-! ## Values -/

/-- A value that is not empty is a bracket escape. -/
theorem toList_escapeText {value : String} (h : value ≠ "") :
    (escapeText value).toList = '[' :: (value.toList ++ [']']) := by
  simp [escapeText, h]

/-- The empty value is written as nothing. -/
theorem toList_escapeText_empty : (escapeText "").toList = [] := by
  simp [escapeText]

/-- The characters of a value without brackets are no brackets. -/
theorem isBracket_of_freeOf {value : String} (h : FreeOf ['[', ']'] value) :
    ∀ c ∈ value.toList, isBracket c = false := by
  intro c hc
  simpa [isBracket] using h c hc

/-- A written value ends a mark in front of it. -/
theorem endsMark_escapeText (value : String) : EndsMark (escapeText value).toList := by
  by_cases hvalue : value = ""
  · rw [hvalue, toList_escapeText_empty]
    intro c hc
    cases hc
  · rw [toList_escapeText hvalue]
    exact endsMark_cons (by decide) (by decide)

/-- A written value holds neither tokens nor media aliases. -/
theorem marks_escapeText {value : String} (h : FreeOf ['[', ']'] value) :
    marks (escapeText value).toList =
      if value = "" then [] else [Mark.bracket value.toList] := by
  by_cases hvalue : value = ""
  · rw [hvalue, toList_escapeText_empty, marks_nil, if_pos rfl]
  · have hlex := lex?_bracket (by simpa using hvalue) (isBracket_of_freeOf h) []
    rw [toList_escapeText hvalue, marks_of_lex? hlex, marks_nil, if_neg hvalue]

/-- Splitting passes over a written value. -/
theorem unsplit_escapeText {value : String} (h : FreeOf ['[', ']'] value) (separator : Char) :
    Unsplit separator (escapeText value).toList := by
  by_cases hvalue : value = ""
  · rw [hvalue, toList_escapeText_empty]
    exact Unsplit.nil
  · rw [toList_escapeText hvalue]
    exact Unsplit.bracket (by simpa using hvalue) (isBracket_of_freeOf h)

/-- The first bracket escape comes after any text without opening brackets. -/
theorem firstBracket?_append {front : List Char} (h : '[' ∉ front) (rest : List Char) :
    firstBracket? (front ++ rest) = firstBracket? rest := by
  induction front with
  | nil => rfl
  | cons c front ih =>
      simp only [List.mem_cons, not_or] at h
      rw [List.cons_append, firstBracket?, bracket?_cons_of_ne (Ne.symm h.1)]
      exact ih h.2

/-- After the last equals sign there is nothing if the text ends in one. -/
theorem afterLast?_append_self (separator : Char) (front : List Char) :
    Text.afterLast? separator (front ++ [separator]) = some [] := by
  induction front with
  | nil => simp [Text.afterLast?]
  | cons c front ih => rw [List.cons_append, Text.afterLast?, ih]

/-- A value in brackets is the value of the statement. -/
theorem rawValue_escapeText {front : List Char} (hfront : '[' ∉ front) {value : String}
    (hne : value ≠ "") (h : FreeOf ['[', ']'] value) (structured : Bool) :
    rawValue structured (front ++ (escapeText value).toList) = value.toList := by
  have hbracket := bracket?_append (by simpa using hne) (isBracket_of_freeOf h) []
  unfold rawValue
  rw [firstBracket?_append hfront, toList_escapeText hne, firstBracket?, hbracket]

/-- What is written after an equals sign is the value of the statement. -/
theorem rawValue_equals {front : List Char} (hfront : '[' ∉ front) {value : String}
    (h : FreeOf ['[', ']'] value) (structured : Bool) :
    rawValue structured (front ++ '=' :: (escapeText value).toList) = value.toList := by
  have hequals : '[' ∉ front ++ ['='] := by simp [hfront]
  have htext : front ++ '=' :: (escapeText value).toList =
      (front ++ ['=']) ++ (escapeText value).toList := by simp
  by_cases hvalue : value = ""
  · have hnone : firstBracket? (front ++ ['=']) = none := by
      have hskip := firstBracket?_append hequals []
      rw [List.append_nil] at hskip
      rw [hskip, firstBracket?]
    rw [htext, hvalue, toList_escapeText_empty, List.append_nil, rawValue, hnone]
    simp [afterLast?_append_self]
  · rw [htext]
    exact rawValue_escapeText hequals hvalue h structured

/-! ## The round trip -/

/-- The characters of a written statement. -/
theorem toList_print (statement : Statement) :
    statement.print.toList = (leadText statement.selectors statement.media).toList ++
      '=' :: (escapeText statement.value).toList := by
  simp [print]

namespace Printable

variable {statement : Statement}

/-- The tokens of a statement that can be written are well spelled. -/
theorem wellSpelled (h : statement.Printable) :
    ∀ token ∈ statement.selectors, token.WellSpelled :=
  fun token htoken => (h.selectors token htoken).toWellSpelled

/-- Neither a bracket nor a bar stands in front of the value. -/
theorem not_mem_leadText (h : statement.Printable) {c : Char} (hc : c ∈ ['[', ']', '|']) :
    c ∉ (leadText statement.selectors statement.media).toList := by
  obtain ⟨hword, hmark⟩ : isWord c = false ∧
      c ∉ [':', '(', ')', '&', ' ', '>', '~', '+', '@'] := by
    simp only [List.mem_cons, List.not_mem_nil, or_false] at hc
    rcases hc with rfl | rfl | rfl
    · decide
    · decide
    · decide
  refine Statement.not_mem_leadText h.wellSpelled h.media hword hmark ?_
  intro token htoken param hparam hmem
  exact (h.selectors token htoken).separate param hparam c hmem hc

/-- Splitting at bars passes over the text in front of a value. -/
theorem unsplit_leadText (h : statement.Printable) :
    Unsplit '|' (leadText statement.selectors statement.media).toList :=
  Unsplit.of_not_mem (h.not_mem_leadText (by decide)) (h.not_mem_leadText (by decide))

/-- Splitting at bars passes over a written statement. -/
theorem unsplit_print (h : statement.Printable) : Unsplit '|' statement.print.toList := by
  have hequals : Unsplit '|' ['='] := Unsplit.of_not_mem (by decide) (by decide)
  rw [toList_print]
  exact h.unsplit_leadText.append (hequals.append (unsplit_escapeText h.value '|'))

/-- A written statement is read back. -/
theorem parse_print (h : statement.Printable) : parse statement.print = statement := by
  have hends : EndsMark ('=' :: (escapeText statement.value).toList) :=
    endsMark_cons (by decide) (by decide)
  have hmarks : marks statement.print.toList =
      leadMarks statement.selectors statement.media ++
        marks (escapeText statement.value).toList := by
    rw [toList_print, marks_leadText h.wellSpelled h.media hends,
      marks_cons_of_none (lex?_eq_none (by decide) _)]
  have hrest : selectorsOf (marks (escapeText statement.value).toList) = [] ∧
      mediaOf (marks (escapeText statement.value).toList) = none := by
    rw [marks_escapeText h.value]
    split <;> exact ⟨rfl, rfl⟩
  unfold parse
  simp only [hmarks, selectorsOf_leadMarks _ _ hrest.1, mediaOf_leadMarks _ _ hrest.2]
  rw [toList_print, rawValue_equals (h.not_mem_leadText (by decide)) h.value, String.ofList_toList]

end Printable

/-- Written statements that are joined by bars are split and read back. -/
theorem map_parse_split_printAll {statements : List Statement} (hne : statements ≠ [])
    (h : ∀ statement ∈ statements, statement.Printable) :
    (split (printAll statements)).map parse = statements :=
  map_split_join hne (fun statement hmem => (h statement hmem).unsplit_print)
    fun statement hmem => (h statement hmem).parse_print

/-- A statement that was read can be written if no bracket or bar stands in its parameters and no
bracket in its value. -/
theorem printable_parse {text : String}
    (hparam : ∀ token ∈ (parse text).selectors, ∀ param ∈ token.param?,
      FreeOf ['[', ']', '|'] param)
    (hvalue : FreeOf ['[', ']'] (parse text).value) : (parse text).Printable where
  selectors token htoken := ⟨wellSpelled_of_mem_selectors htoken, hparam token htoken⟩
  media _ hname := isWordText_of_mem_media hname
  value := hvalue

/-- Writing and reading agree. Statements that can be written are read back from the text of their
list. What is read from any text is well spelled; and if no bracket or bar stands in its parameters
and no bracket in its value, it is read back from its own text. -/
theorem parse_split_printAll :
    (∀ statements : List Statement, statements ≠ [] →
      (∀ statement ∈ statements, statement.Printable) →
        (split (printAll statements)).map parse = statements) ∧
      ∀ text : String,
        (∀ token ∈ (parse text).selectors, token.WellSpelled) ∧
        (∀ name ∈ (parse text).media, IsWordText name) ∧
        ((∀ token ∈ (parse text).selectors, ∀ param ∈ token.param?,
            FreeOf ['[', ']', '|'] param) →
          FreeOf ['[', ']'] (parse text).value →
            parse (parse text).print = parse text ∧
              (split (parse text).print).map parse = [parse text]) := by
  refine ⟨fun statements hne h => map_parse_split_printAll hne h, fun text =>
    ⟨fun token => wellSpelled_of_mem_selectors, fun name => isWordText_of_mem_media, ?_⟩⟩
  intro hparam hvalue
  have hprintable := printable_parse hparam hvalue
  have hsplit : (split (printAll [parse text])).map parse = [parse text] :=
    map_parse_split_printAll (by simp) fun statement hmem => by
      rw [List.mem_singleton.mp hmem]
      exact hprintable
  have hprintAll : printAll [parse text] = (parse text).print := by
    simp [printAll, Text.join]
  exact ⟨hprintable.parse_print, hprintAll ▸ hsplit⟩

/-- A value full of marks behind tokens of all kinds, an empty statement, and an empty value behind
a parameter with an equals sign. -/
theorem parse_split_printAll_marks :
    (split (printAll
        [⟨[.named "hover", .functional "nthChild" "2n+1", .combinator .descendant "li"],
            some "md", "a|b=:c@d& é"⟩,
          ⟨[], none, ""⟩, ⟨[.functional "not" "a=b"], none, ""⟩])).map parse =
      [⟨[.named "hover", .functional "nthChild" "2n+1", .combinator .descendant "li"],
          some "md", "a|b=:c@d& é"⟩,
        ⟨[], none, ""⟩, ⟨[.functional "not" "a=b"], none, ""⟩] :=
  parse_split_printAll.1 _ (by decide) (by decide +kernel)

end Statement

end StyleProps
