import StyleProps.Proofs.Printing

/-!
# Two spellings of a rule

A rule of one alias can be written in the text of that alias, as tokens, media alias and value
(`printBare`), and in the text of a selector, as tokens, media alias and an item that names the
alias (`printItem`). Both spellings are single statements, and `parse_printBare`,
`parseScoped_printItem` and `splitItems_itemText` say what is read from them.
-/

namespace StyleProps.Statement

/-- The text of a statement without the equals sign. -/
def printBare (statement : Statement) : String :=
  leadText statement.selectors statement.media ++ escapeText statement.value

/-- The text of an item. -/
def itemText (name value : String) : String :=
  name ++ "=" ++ escapeText value

/-- The text of a statement of a selector whose only item gives the value of the statement to an
alias. The item follows an equals sign if a token or a media alias stands in front of it. -/
def printItem (name : String) (statement : Statement) : String :=
  leadText statement.selectors statement.media ++ (if statement.hasStructure then "=" else "") ++
    itemText name statement.value

/-- A statement with one more token in front. -/
def under (statement : Statement) (token : SelectorToken) : Statement :=
  { statement with selectors := token :: statement.selectors }

/-! ## The marks in front of an item -/

/-- Where no mark stands in front, nothing is read. -/
theorem leading_of_none {chars : List Char} (h : Mark.lex? chars = none) (hasMedia : Bool) :
    leading hasMedia chars = ([], chars) := by
  rw [leading]
  split
  · next heq => simp [h] at heq
  · next heq => simp [h] at heq
  · rfl

/-- A token in front is read, and then what follows it. -/
theorem leading_of_token {chars after rest : List Char} {token : SelectorToken} {marks : List Mark}
    {hasMedia : Bool} (h : Mark.lex? chars = some (.selector token, after))
    (hafter : leading hasMedia after = (marks, rest)) :
    leading hasMedia chars = (.selector token :: marks, rest) := by
  rw [leading]
  split
  · next heq =>
      rw [h, Option.some.injEq, Prod.mk.injEq, Mark.selector.injEq] at heq
      obtain ⟨rfl, rfl⟩ := heq
      rw [hafter]
  · next heq => simp [h] at heq
  · next hother _ => exact absurd h (hother token after)

/-- A first media alias in front is read, and then what follows it. -/
theorem leading_of_media {chars after rest : List Char} {name : String} {marks : List Mark}
    (h : Mark.lex? chars = some (.media name, after))
    (hafter : leading true after = (marks, rest)) :
    leading false chars = (.media name :: marks, rest) := by
  rw [leading]
  split
  · next heq => simp [h] at heq
  · next heq =>
      rw [h, Option.some.injEq, Prod.mk.injEq, Mark.media.injEq] at heq
      obtain ⟨rfl, rfl⟩ := heq
      rw [if_neg (by simp), hafter]
  · next hother => exact absurd h (hother name after)

/-- Written tokens and a written media alias in front of a text that starts with no mark are
read. -/
theorem leading_leadText {tokens : List SelectorToken} {media : Option String} {rest : List Char}
    (htokens : ∀ token ∈ tokens, token.WellSpelled) (hmedia : ∀ name ∈ media, IsWordText name)
    (hrest : EndsMark rest) (hnone : Mark.lex? rest = none) :
    leading false ((leadText tokens media).toList ++ rest) = (leadMarks tokens media, rest) := by
  induction tokens with
  | nil =>
      rw [toList_leadText_nil]
      cases media with
      | none => simpa [mediaText, leadMarks] using leading_of_none hnone false
      | some name =>
          have hlex := lex?_media (hmedia name rfl) fun c hc => (hrest c hc).1
          rw [toList_mediaText_append]
          exact leading_of_media hlex (leading_of_none hnone true)
  | cons token tokens ih =>
      have hlex := lex?_token (htokens token List.mem_cons_self)
        (endsMark_leadText tokens media hrest)
      rw [toList_leadText_cons, List.append_assoc]
      exact leading_of_token hlex
        (ih fun other hother => htokens other (List.mem_cons_of_mem _ hother))

/-- A statement without marks in front has neither tokens nor a media alias. -/
theorem hasStructure_eq_false_iff {statement : Statement} :
    statement.hasStructure = false ↔ statement.selectors = [] ∧ statement.media = none := by
  simp [hasStructure]

/-- There are marks in front exactly if there are tokens or a media alias. -/
theorem isEmpty_leadMarks (statement : Statement) :
    (leadMarks statement.selectors statement.media).isEmpty = !statement.hasStructure := by
  unfold leadMarks hasStructure
  cases statement.selectors with
  | nil => cases statement.media <;> rfl
  | cons token rest => rfl

/-! ## Items -/

/-- The characters of an item. -/
theorem toList_itemText (name value : String) :
    (itemText name value).toList = name.toList ++ '=' :: (escapeText value).toList := by
  simp [itemText]

/-- A text that starts with a word starts with no mark. -/
theorem lex?_word_append {word : String} (h : IsWordText word) (rest : List Char) :
    Mark.lex? (word.toList ++ rest) = none := by
  cases hword : word.toList with
  | nil => exact absurd hword h.toList_ne_nil
  | cons c tail =>
      have hc : isWord c = true := h.2 c (by simp [hword])
      have hne : ∀ d, isWord d = false → c ≠ d := fun d hd => ne_of_isWord hc hd
      refine lex?_eq_none ?_ _
      simp only [List.mem_cons, List.not_mem_nil, or_false, not_or]
      exact ⟨hne '[' (by decide), hne ':' (by decide), hne '&' (by decide), hne '@' (by decide)⟩

/-- A text that starts with a word is no bracket escape. -/
theorem unwrapped_word_append {word : String} (h : IsWordText word) (rest : List Char) :
    unwrapped (word.toList ++ rest) = word.toList ++ rest := by
  cases hword : word.toList with
  | nil => exact absurd hword h.toList_ne_nil
  | cons c tail =>
      have hc : c ≠ '[' := ne_of_isWord (h.2 c (by simp [hword])) (by decide)
      rw [List.cons_append, unwrapped, bracket?_cons_of_ne hc]

/-- A value in brackets is taken out of them. -/
theorem unwrapped_escapeText {value : String} (h : FreeOf ['[', ']'] value) :
    unwrapped (escapeText value).toList = value.toList := by
  by_cases hvalue : value = ""
  · rw [hvalue, toList_escapeText_empty]
    rfl
  · have hbracket := bracket?_append (by simpa using hvalue) (isBracket_of_freeOf h) []
    rw [toList_escapeText hvalue, unwrapped, hbracket]

/-- Splitting passes over an item, at any separator that is no word character. -/
theorem unsplit_itemText {name value : String} (hname : IsWordText name)
    (hvalue : FreeOf ['[', ']'] value) {separator : Char} (hword : isWord separator = false)
    (hequals : separator ≠ '=') : Unsplit separator (itemText name value).toList := by
  have hfront : Unsplit separator name.toList :=
    Unsplit.of_not_mem (not_mem_of_isWordText hname (by decide)) (not_mem_of_isWordText hname hword)
  have hsign : Unsplit separator ['='] := Unsplit.of_not_mem (by decide) (by simpa using hequals)
  rw [toList_itemText]
  exact hfront.append (hsign.append (unsplit_escapeText hvalue separator))

/-- An item is read back. -/
theorem item?_itemText {name value : String} (hname : IsWordText name)
    (hvalue : FreeOf ['[', ']'] value) :
    item? (itemText name value).toList = some (name, value) := by
  have hequals : '=' ∉ name.toList := not_mem_of_isWordText hname (by decide)
  rw [toList_itemText, item?, Text.cut?_append hequals, Option.map_some]
  simp only [unwrapped_escapeText hvalue, String.ofList_toList]

/-- The only item of an item is the item. -/
theorem splitItems_itemText {name value : String} (hname : IsWordText name)
    (hvalue : FreeOf ['[', ']'] value) : splitItems (itemText name value) = [(name, value)] := by
  have hunsplit : Unsplit ';' (itemText name value).toList :=
    unsplit_itemText hname hvalue (by decide) (by decide)
  rw [splitItems, hunsplit.splitOutside_eq, List.filterMap_cons_some (item?_itemText hname hvalue),
    List.filterMap_nil]

/-! ## Statements of selectors -/

/-- The text of a statement of a selector whose value is written as it is. The value follows an
equals sign if a token or a media alias stands in front of it. -/
def printScoped (statement : Statement) : String :=
  leadText statement.selectors statement.media ++ (if statement.hasStructure then "=" else "") ++
    statement.value

/-- A statement of a selector is read back if its value starts with no mark and is no bracket
escape. -/
theorem parseScoped_printScoped {statement : Statement}
    (htokens : ∀ token ∈ statement.selectors, token.WellSpelled)
    (hmedia : ∀ name ∈ statement.media, IsWordText name)
    (hlex : Mark.lex? statement.value.toList = none)
    (hvalue : unwrapped statement.value.toList = statement.value.toList) :
    parseScoped statement.printScoped = statement := by
  have hread : leading false statement.printScoped.toList =
      (leadMarks statement.selectors statement.media,
        if statement.hasStructure then '=' :: statement.value.toList
        else statement.value.toList) := by
    rw [printScoped, String.toList_append, String.toList_append, List.append_assoc]
    cases hstructure : statement.hasStructure with
    | true =>
        exact leading_leadText htokens hmedia (endsMark_cons (by decide) (by decide))
          (lex?_eq_none (by decide) _)
    | false =>
        -- Nothing stands in front of the value, and it starts with no mark itself.
        obtain ⟨hselectors, hnone⟩ := hasStructure_eq_false_iff.mp hstructure
        rw [hselectors, hnone]
        exact leading_of_none hlex false
  have hselectors := selectorsOf_leadMarks statement.selectors statement.media
    (show selectorsOf [] = [] from rfl)
  have hmediaOf := mediaOf_leadMarks statement.selectors statement.media
    (show mediaOf [] = none from rfl)
  rw [List.append_nil] at hselectors hmediaOf
  unfold parseScoped
  simp only [hread, isEmpty_leadMarks, hselectors, hmediaOf]
  cases statement.hasStructure with
  | true => simp [afterEquals, hvalue]
  | false => simp [hvalue]

/-- Splitting at bars passes over a statement of a selector if it passes over the text in front of
the value and over the value. -/
theorem unsplit_printScoped {statement : Statement}
    (hlead : Unsplit '|' (leadText statement.selectors statement.media).toList)
    (hvalue : Unsplit '|' statement.value.toList) : Unsplit '|' statement.printScoped.toList := by
  have hsign : Unsplit '|' (if statement.hasStructure then "=" else "").toList := by
    split
    · exact Unsplit.of_not_mem (by decide) (by decide)
    · exact Unsplit.nil
  rw [printScoped, String.toList_append, String.toList_append]
  exact (hlead.append hsign).append hvalue

/-! ## The two spellings -/

namespace Printable

variable {statement : Statement}

/-- A statement under one more token that can be written can be written. -/
theorem under (h : statement.Printable) {token : SelectorToken} (htoken : token.Printable) :
    (statement.under token).Printable where
  selectors other hother := by
    rcases List.mem_cons.mp hother with rfl | hmem
    · exact htoken
    · exact h.selectors other hmem
  media := h.media
  value := h.value

/-- A statement without the equals sign is a single statement. -/
theorem split_printBare (h : statement.Printable) :
    split statement.printBare = [statement.printBare] := by
  refine split_of_unsplit ?_
  rw [printBare, String.toList_append]
  exact h.unsplit_leadText.append (unsplit_escapeText h.value '|')

/-- A statement of a selector with a single item is a single statement. -/
theorem split_printItem (h : statement.Printable) {name : String} (hname : IsWordText name) :
    split (statement.printItem name) = [statement.printItem name] := by
  have hitem : Unsplit '|' (itemText name statement.value).toList :=
    unsplit_itemText hname h.value (by decide) (by decide)
  have hscoped : statement.printItem name =
      { statement with value := itemText name statement.value }.printScoped := rfl
  rw [hscoped]
  exact split_of_unsplit (unsplit_printScoped h.unsplit_leadText hitem)

/-- A statement with a value is read back also without the equals sign. -/
theorem parse_printBare (h : statement.Printable) (hvalue : statement.value ≠ "") :
    parse statement.printBare = statement := by
  have hmarks : marks statement.printBare.toList =
      leadMarks statement.selectors statement.media ++ [Mark.bracket statement.value.toList] := by
    rw [printBare, String.toList_append,
      marks_leadText h.wellSpelled h.media (endsMark_escapeText statement.value),
      marks_escapeText h.value, if_neg hvalue]
  unfold parse
  simp only [hmarks]
  rw [selectorsOf_leadMarks _ _ rfl, mediaOf_leadMarks _ _ rfl, printBare, String.toList_append,
    rawValue_escapeText (h.not_mem_leadText (by decide)) hvalue h.value, String.ofList_toList]

/-- A statement of a selector with a single item is read back, with the item as its value. -/
theorem parseScoped_printItem (h : statement.Printable) {name : String} (hname : IsWordText name) :
    parseScoped (statement.printItem name) =
      { statement with value := itemText name statement.value } := by
  have hscoped : statement.printItem name =
      { statement with value := itemText name statement.value }.printScoped := rfl
  have hlex : Mark.lex? (itemText name statement.value).toList = none := by
    rw [toList_itemText]
    exact lex?_word_append hname _
  have hvalue : unwrapped (itemText name statement.value).toList =
      (itemText name statement.value).toList := by
    rw [toList_itemText]
    exact unwrapped_word_append hname _
  rw [hscoped]
  exact parseScoped_printScoped h.wellSpelled h.media hlex hvalue

end Printable

end StyleProps.Statement
