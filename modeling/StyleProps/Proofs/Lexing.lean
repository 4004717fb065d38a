import StyleProps.Statement.Basic

/-!
# Reading written marks

Selector tokens and media aliases as they are written, and what the lexers make of them. A mark that
is written in front of a text is read back, and the text after it is left alone (`lex?_token`,
`lex?_media`, `lex?_bracket`); it takes a character that cannot continue the mark, which is what
`EndsMark` says of the text. Conversely, what is read is well spelled (`wellSpelled_of_lex?`).
-/

namespace StyleProps

/-- Whether a text is a word of a statement. -/
def IsWordText (text : String) : Prop :=
  text ≠ "" ∧ ∀ c ∈ text.toList, Statement.isWord c = true

/-- Words can be told by looking at each character. -/
instance (text : String) : Decidable (IsWordText text) :=
  decidable_of_iff (text ≠ "" ∧ text.toList.all Statement.isWord = true)
    (and_congr Iff.rfl List.all_eq_true)

/-- Whether none of some characters occurs in a text. -/
def FreeOf (excluded : List Char) (text : String) : Prop :=
  ∀ c ∈ text.toList, c ∉ excluded

/-- Excluded characters can be told by looking at each character. -/
instance (excluded : List Char) (text : String) : Decidable (FreeOf excluded text) :=
  decidable_of_iff ((text.toList.all fun c => !excluded.contains c) = true) (by simp [FreeOf])

namespace SelectorToken

/-- The name or the target of a token. -/
def word : SelectorToken → String
  | .named name => name
  | .functional name _ => name
  | .combinator _ target => target

/-- The parameter of a token that has one. -/
def param? : SelectorToken → Option String
  | .functional _ param => some param
  | _ => none

/-- Whether the name or target of a token is a word, and its parameter has no parentheses. -/
structure WellSpelled (token : SelectorToken) : Prop where
  word : IsWordText token.word
  param : ∀ param ∈ token.param?, FreeOf ['(', ')'] param

/-- Well-spelled tokens can be told by looking at their texts. -/
instance (token : SelectorToken) : Decidable token.WellSpelled :=
  decidable_of_iff (IsWordText token.word ∧ ∀ param ∈ token.param?, FreeOf ['(', ')'] param)
    ⟨fun ⟨hword, hparam⟩ => ⟨hword, hparam⟩, fun h => ⟨h.word, h.param⟩⟩

end SelectorToken

/-- What is written between the ampersand and the target of a combinator, after a space. -/
def Combinator.symbolChars : Combinator → List Char
  | .child => ['>', ' ']
  | .generalSibling => ['~', ' ']
  | .adjacentSibling => ['+', ' ']
  | .descendant => []

/-- The characters of a selector: ampersand, space, symbol and target. -/
theorem Combinator.toList_selector (joint : Combinator) (target : String) :
    (joint.selector target).toList = '&' :: ' ' :: (joint.symbolChars ++ target.toList) := by
  cases joint <;> simp [Combinator.selector, Combinator.symbolChars]

/-- A word has a first character. -/
theorem IsWordText.toList_ne_nil {text : String} (h : IsWordText text) : text.toList ≠ [] := by
  simpa using h.1

namespace Statement

/-- Whether a text does not continue a word or a pseudo token in front of it. -/
def EndsMark (rest : List Char) : Prop :=
  ∀ c ∈ rest.head?, isWord c = false ∧ c ≠ '('

/-- A text that starts with a character that is neither of a word nor a parenthesis ends a mark. -/
theorem endsMark_cons {c : Char} {rest : List Char} (hword : isWord c = false) (hparen : c ≠ '(') :
    EndsMark (c :: rest) := by
  intro d hd
  obtain rfl := Option.some.inj hd
  exact ⟨hword, hparen⟩

/-! ## Reading the parts of a mark -/

/-- A written word is read back. -/
theorem word?_append {text : String} {rest : List Char} (h : IsWordText text)
    (hrest : ∀ c ∈ rest.head?, isWord c = false) :
    word? (text.toList ++ rest) = some (text, rest) := by
  obtain ⟨htake, hdrop⟩ := Text.span_append h.2 hrest
  unfold word?
  rw [htake, hdrop]
  split
  · next hnil => exact absurd hnil h.toList_ne_nil
  · rw [String.ofList_toList]

/-- A written parameter is read back. -/
theorem parameter?_append {param : String} (h : FreeOf ['(', ')'] param) (rest : List Char) :
    parameter? ('(' :: (param.toList ++ ')' :: rest)) = some (param, rest) := by
  have hfront : ∀ c ∈ param.toList, (!isParenthesis c) = true := by
    intro c hc
    simpa [isParenthesis] using h c hc
  have hclose : ∀ c ∈ (')' :: rest).head?, (!isParenthesis c) = false := by simp [isParenthesis]
  obtain ⟨htake, hdrop⟩ := Text.span_append hfront hclose
  simp only [parameter?, htake, hdrop, String.ofList_toList]

/-- Without an opening parenthesis there is no parameter. -/
theorem parameter?_eq_none {rest : List Char} (h : ∀ c ∈ rest.head?, c ≠ '(') :
    parameter? rest = none := by
  cases rest with
  | nil => rfl
  | cons c rest =>
      have hc := h c rfl
      unfold parameter?
      split
      · next heq => exact absurd (List.cons.inj heq).1 hc
      · rfl

/-- A written bracket escape is read back. -/
theorem bracket?_append {content : List Char} (hne : content ≠ [])
    (h : ∀ c ∈ content, isBracket c = false) (rest : List Char) :
    bracket? ('[' :: (content ++ ']' :: rest)) = some (content, rest) := by
  have hfront : ∀ c ∈ content, (!isBracket c) = true := by
    intro c hc
    rw [h c hc]
    rfl
  have hclose : ∀ c ∈ (']' :: rest).head?, (!isBracket c) = false := by simp [isBracket]
  obtain ⟨htake, hdrop⟩ := Text.span_append hfront hclose
  simp [bracket?, htake, hdrop, hne]

/-- What a bracket escape is read from: a content without brackets that is not empty, between two
brackets. -/
theorem eq_of_bracket? {chars content after : List Char}
    (h : bracket? chars = some (content, after)) :
    chars = '[' :: (content ++ ']' :: after) ∧ content ≠ [] ∧
      ∀ c ∈ content, isBracket c = false := by
  unfold bracket? at h
  split at h
  · next rest =>
      split at h
      · next after' hdrop =>
          dsimp only at h
          split at h
          · cases h
          · next hne =>
              obtain ⟨rfl, rfl⟩ := Prod.mk.inj (Option.some.inj h)
              refine ⟨?_, by simpa using hne, fun c hc => ?_⟩
              · rw [← hdrop, List.takeWhile_append_dropWhile]
              · simpa using List.all_eq_true.mp List.all_takeWhile c hc
      · cases h
  · cases h

/-- Whether a text can stand in a bracket escape: it is not empty and has no brackets. -/
def IsContent (content : List Char) : Prop :=
  content ≠ [] ∧ ∀ c ∈ content, isBracket c = false

/-- Contents can be told by looking at each character. -/
instance (content : List Char) : Decidable (IsContent content) :=
  decidable_of_iff (content.isEmpty = false ∧ (content.all fun c => !isBracket c) = true)
    (by simp [IsContent])

/-- What is read as a bracket escape is a content between brackets. -/
theorem bracket?_eq_some_iff {chars content after : List Char} :
    bracket? chars = some (content, after) ↔
      chars = '[' :: (content ++ ']' :: after) ∧ IsContent content := by
  constructor
  · exact eq_of_bracket?
  · rintro ⟨rfl, hne, hfree⟩
    exact bracket?_append hne hfree after

/-- A bracket escape at the front is read whatever follows the text. -/
theorem bracket?_append_of_some {chars content after : List Char}
    (h : bracket? chars = some (content, after)) (tail : List Char) :
    bracket? (chars ++ tail) = some (content, after ++ tail) := by
  obtain ⟨rfl, hne, hcontent⟩ := eq_of_bracket? h
  simpa using bracket?_append hne hcontent (after ++ tail)

/-- Without an opening bracket there is no bracket escape. -/
theorem bracket?_cons_of_ne {c : Char} (h : c ≠ '[') (rest : List Char) :
    bracket? (c :: rest) = none := by
  unfold bracket?
  split
  · next heq => exact absurd (List.cons.inj heq).1 h
  · rfl

/-- Word characters differ from all others. -/
theorem ne_of_isWord {c d : Char} (hc : isWord c = true) (hd : isWord d = false) : c ≠ d := by
  rintro rfl
  rw [hc] at hd
  cases hd

/-- Whatever is no word character does not occur in a word. -/
theorem not_mem_of_isWordText {text : String} (h : IsWordText text) {c : Char}
    (hc : isWord c = false) : c ∉ text.toList := by
  intro hmem
  exact absurd rfl (ne_of_isWord (h.2 c hmem) hc)

/-- No character of a word is blank. -/
theorem isBlank_of_isWord {c : Char} (h : isWord c = true) : isBlank c = false := by
  have hne : ∀ d, isWord d = false → c ≠ d := fun d hd => ne_of_isWord h hd
  simp only [isBlank, Bool.or_eq_false_iff, decide_eq_false_iff_not]
  exact ⟨⟨⟨⟨hne _ (by decide), hne _ (by decide)⟩, hne _ (by decide)⟩, hne _ (by decide)⟩,
    hne _ (by decide)⟩

/-- The symbol of a written combinator is read back, up to blanks before the target. -/
theorem symbol?_append (joint : Combinator) {c : Char} (h : isWord c = true) (rest : List Char) :
    ∃ after, symbol? (' ' :: (joint.symbolChars ++ c :: rest)) = some (joint, after) ∧
      after.dropWhile isBlank = c :: rest := by
  have hspace : isBlank ' ' = true := by decide
  have hblank : (c :: rest).dropWhile isBlank = c :: rest := by
    rw [List.dropWhile_cons_of_neg (by simp [isBlank_of_isWord h])]
  have hsymbol : ∀ d, isBlank d = false →
      (' ' :: d :: ' ' :: c :: rest).dropWhile isBlank = d :: ' ' :: c :: rest := by
    intro d hd
    rw [List.dropWhile_cons_of_pos hspace, List.dropWhile_cons_of_neg (by simp [hd])]
  have hafter : (' ' :: c :: rest).dropWhile isBlank = c :: rest := by
    rw [List.dropWhile_cons_of_pos hspace, hblank]
  cases joint with
  | child =>
      refine ⟨' ' :: c :: rest, ?_, hafter⟩
      simp only [symbol?, Combinator.symbolChars, List.cons_append, List.nil_append,
        hsymbol '>' (by decide)]
  | generalSibling =>
      refine ⟨' ' :: c :: rest, ?_, hafter⟩
      simp only [symbol?, Combinator.symbolChars, List.cons_append, List.nil_append,
        hsymbol '~' (by decide)]
  | adjacentSibling =>
      refine ⟨' ' :: c :: rest, ?_, hafter⟩
      simp only [symbol?, Combinator.symbolChars, List.cons_append, List.nil_append,
        hsymbol '+' (by decide)]
  | descendant =>
      refine ⟨c :: rest, ?_, hblank⟩
      have hne : ∀ d, isWord d = false → c ≠ d := fun d hd => ne_of_isWord h hd
      -- No symbol follows the space, so the space itself is what joins.
      have hmem : ' ' ∈ (' ' :: c :: rest).takeWhile isBlank := by
        rw [List.takeWhile_cons_of_pos hspace]
        exact List.mem_cons_self
      unfold symbol?
      simp only [Combinator.symbolChars, List.nil_append, hafter]
      split
      · next heq => exact absurd (List.cons.inj heq).1 (hne _ (by decide))
      · next heq => exact absurd (List.cons.inj heq).1 (hne _ (by decide))
      · next heq => exact absurd (List.cons.inj heq).1 (hne _ (by decide))
      · rw [if_pos hmem]

/-- A written combinator is read back. -/
theorem combinator?_append (joint : Combinator) {target : String} {rest : List Char}
    (h : IsWordText target) (hrest : ∀ c ∈ rest.head?, isWord c = false) :
    combinator? ((joint.selector target).toList ++ rest) =
      some (.combinator joint target, rest) := by
  have hword := word?_append h hrest
  rw [Combinator.toList_selector]
  cases htarget : target.toList with
  | nil => exact absurd htarget h.toList_ne_nil
  | cons c tail =>
      have hc : isWord c = true := h.2 c (by simp [htarget])
      obtain ⟨after, hsymbol, hblank⟩ := symbol?_append joint hc (tail ++ rest)
      rw [htarget] at hword
      simp only [List.cons_append, List.append_assoc, combinator?, hsymbol, hblank]
      rw [← List.cons_append, hword]
      rfl

/-- After one colon, a word is the name of a pseudo token. -/
theorem pseudo?_of_isWord {name : String} (h : IsWordText name) (rest : List Char) :
    pseudo? (':' :: (name.toList ++ rest)) = pseudoName? (name.toList ++ rest) := by
  cases hname : name.toList with
  | nil => exact absurd hname h.toList_ne_nil
  | cons c tail =>
      have hc : c ≠ ':' := ne_of_isWord (h.2 c (by simp [hname])) (by decide)
      unfold pseudo?
      split
      · next heq => exact absurd (List.cons.inj (List.cons.inj heq).2).1 hc
      · next heq => rw [(List.cons.inj heq).2]
      · next _ hcolon => exact absurd rfl (hcolon _)

/-- A written name without a parameter behind it is read back. -/
theorem pseudoName?_named {name : String} {rest : List Char} (h : IsWordText name)
    (hrest : ∀ c ∈ rest.head?, isWord c = false) (hparam : parameter? rest = none) :
    pseudoName? (name.toList ++ rest) = some (.named name, rest) := by
  simp only [pseudoName?, word?_append h hrest, hparam]

/-- A written name with a parameter is read back. -/
theorem pseudoName?_functional {name param : String} (h : IsWordText name)
    (hparam : FreeOf ['(', ')'] param) (rest : List Char) :
    pseudoName? (name.toList ++ '(' :: (param.toList ++ ')' :: rest)) =
      some (.functional name param, rest) := by
  have hopen : ∀ c ∈ ('(' :: (param.toList ++ ')' :: rest)).head?, isWord c = false := by
    intro c hc
    obtain rfl := Option.some.inj hc
    decide
  simp only [pseudoName?, word?_append h hopen, parameter?_append hparam]

/-- A written pseudo token without parameter is read back. -/
theorem pseudo?_named {name : String} {rest : List Char} (h : IsWordText name)
    (hrest : EndsMark rest) :
    pseudo? (':' :: (name.toList ++ rest)) = some (.named name, rest) := by
  rw [pseudo?_of_isWord h, pseudoName?_named h (fun c hc => (hrest c hc).1)
    (parameter?_eq_none fun c hc => (hrest c hc).2)]

/-- A written pseudo token with a parameter is read back. -/
theorem pseudo?_functional {name param : String} (h : IsWordText name)
    (hparam : FreeOf ['(', ')'] param) (rest : List Char) :
    pseudo? (':' :: (name.toList ++ '(' :: (param.toList ++ ')' :: rest))) =
      some (.functional name param, rest) := by
  rw [pseudo?_of_isWord h, pseudoName?_functional h hparam]

/-! ## Reading a mark -/

/-- A written token starts with a colon or an ampersand. -/
theorem text_eq_cons (token : SelectorToken) :
    ∃ tail, token.text.toList = ':' :: tail ∨ token.text.toList = '&' :: tail := by
  cases token with
  | named name => exact ⟨name.toList, Or.inl (by simp [SelectorToken.text])⟩
  | functional name param =>
      exact ⟨name.toList ++ '(' :: (param.toList ++ [')']), Or.inl (by simp [SelectorToken.text])⟩
  | combinator joint target => exact ⟨_, Or.inr (joint.toList_selector target)⟩

/-- A written selector token is read back. -/
theorem lex?_token {token : SelectorToken} {rest : List Char} (h : token.WellSpelled)
    (hrest : EndsMark rest) :
    Mark.lex? (token.text.toList ++ rest) = some (.selector token, rest) := by
  cases token with
  | named name =>
      have hname : IsWordText name := h.word
      have htext : (SelectorToken.named name).text.toList ++ rest =
          ':' :: (name.toList ++ rest) := by
        simp [SelectorToken.text]
      rw [htext]
      simp [Mark.lex?, pseudo?_named hname hrest]
  | functional name param =>
      have hname : IsWordText name := h.word
      have htext : (SelectorToken.functional name param).text.toList ++ rest =
          ':' :: (name.toList ++ '(' :: (param.toList ++ ')' :: rest)) := by
        simp [SelectorToken.text]
      rw [htext]
      simp [Mark.lex?, pseudo?_functional hname (h.param param rfl) rest]
  | combinator joint target =>
      have htarget : IsWordText target := h.word
      have hlex := combinator?_append joint htarget fun c hc => (hrest c hc).1
      simp only [SelectorToken.text, Combinator.toList_selector, List.cons_append] at hlex ⊢
      simp only [Mark.lex?, hlex, Option.map_some]

/-- A written media alias is read back. -/
theorem lex?_media {name : String} {rest : List Char} (h : IsWordText name)
    (hrest : ∀ c ∈ rest.head?, isWord c = false) :
    Mark.lex? ('@' :: (name.toList ++ rest)) = some (.media name, rest) := by
  simp [Mark.lex?, media?, word?_append h hrest]

/-- A written bracket escape is read back. -/
theorem lex?_bracket {content : List Char} (hne : content ≠ [])
    (h : ∀ c ∈ content, isBracket c = false) (rest : List Char) :
    Mark.lex? ('[' :: (content ++ ']' :: rest)) = some (.bracket content, rest) := by
  simp [Mark.lex?, bracket?_append hne h]

/-- A text that starts with another character than those of marks starts with no mark. -/
theorem lex?_eq_none {c : Char} (h : c ∉ ['[', ':', '&', '@']) (rest : List Char) :
    Mark.lex? (c :: rest) = none := by
  simp only [List.mem_cons, List.not_mem_nil, or_false, not_or] at h
  obtain ⟨hbracket, hcolon, hampersand, hat⟩ := h
  unfold Mark.lex?
  split
  · next heq => exact absurd (List.cons.inj heq).1 hbracket
  · next heq => exact absurd (List.cons.inj heq).1 hcolon
  · next heq => exact absurd (List.cons.inj heq).1 hampersand
  · next heq => exact absurd (List.cons.inj heq).1 hat
  · rfl

/-! ## Reading all marks -/

/-- An empty text has no marks. -/
@[simp] theorem marks_nil : marks [] = [] := by
  rw [marks]

/-- A mark in front is the first mark. -/
theorem marks_of_lex? {chars rest : List Char} {mark : Mark}
    (h : Mark.lex? chars = some (mark, rest)) : marks chars = mark :: marks rest := by
  cases chars with
  | nil => simp [Mark.lex?] at h
  | cons c tail =>
      rw [marks]
      split
      · next heq =>
          rw [h, Option.some.injEq, Prod.mk.injEq] at heq
          rw [heq.1, heq.2]
      · next heq => simp [h] at heq

/-- A character that starts no mark is passed over. -/
theorem marks_cons_of_none {c : Char} {rest : List Char} (h : Mark.lex? (c :: rest) = none) :
    marks (c :: rest) = marks rest := by
  rw [marks]
  split
  · next heq => simp [h] at heq
  · rfl

/-! ## What is read is well spelled -/

/-- Whether the words of a mark are words, and the parameter of a token has no parentheses. -/
def Mark.WellSpelled : Mark → Prop
  | .selector token => token.WellSpelled
  | .media name => IsWordText name
  | .bracket _ => True

/-- A word that is read is one. -/
theorem isWordText_of_word? {chars rest : List Char} {text : String}
    (h : word? chars = some (text, rest)) : IsWordText text := by
  unfold word? at h
  split at h
  · cases h
  · next hne =>
      obtain ⟨rfl, _⟩ := Prod.mk.inj (Option.some.inj h)
      refine ⟨fun hempty => hne ?_, ?_⟩
      · simpa using congrArg String.toList hempty
      · rw [String.toList_ofList]
        exact List.all_eq_true.mp List.all_takeWhile

/-- A word is read from the text in front of what follows it. -/
theorem eq_of_word? {chars rest : List Char} {text : String} (h : word? chars = some (text, rest)) :
    chars = text.toList ++ rest := by
  unfold word? at h
  split at h
  · cases h
  · obtain ⟨rfl, rfl⟩ := Prod.mk.inj (Option.some.inj h)
    rw [String.toList_ofList, List.takeWhile_append_dropWhile]

/-- A parameter that is read has no parentheses. -/
theorem freeOf_of_parameter? {chars rest : List Char} {param : String}
    (h : parameter? chars = some (param, rest)) : FreeOf ['(', ')'] param := by
  unfold parameter? at h
  split at h
  · next tail =>
      split at h
      · obtain ⟨rfl, _⟩ := Prod.mk.inj (Option.some.inj h)
        intro c hc
        rw [String.toList_ofList] at hc
        have hfree := List.all_eq_true.mp List.all_takeWhile c hc
        simpa [isParenthesis] using hfree
      · cases h
  · cases h

/-- A pseudo token that is read is well spelled. -/
theorem wellSpelled_of_pseudoName? {chars rest : List Char} {token : SelectorToken}
    (h : pseudoName? chars = some (token, rest)) : token.WellSpelled := by
  unfold pseudoName? at h
  split at h
  · cases h
  · next hword =>
      have hname := isWordText_of_word? hword
      split at h
      · next hparam =>
          obtain ⟨rfl, _⟩ := Prod.mk.inj (Option.some.inj h)
          refine ⟨hname, fun param hmem => ?_⟩
          obtain rfl := Option.some.inj hmem
          exact freeOf_of_parameter? hparam
      · obtain ⟨rfl, _⟩ := Prod.mk.inj (Option.some.inj h)
        exact ⟨hname, fun param hmem => by cases hmem⟩

/-- A combinator that is read is well spelled. -/
theorem wellSpelled_of_combinator? {chars rest : List Char} {token : SelectorToken}
    (h : combinator? chars = some (token, rest)) : token.WellSpelled := by
  unfold combinator? at h
  split at h
  · split at h
    · cases h
    · obtain ⟨⟨target, after⟩, hword, heq⟩ := Option.map_eq_some_iff.mp h
      obtain ⟨rfl, _⟩ := Prod.mk.inj heq
      exact ⟨isWordText_of_word? hword, fun param hmem => by cases hmem⟩
  · cases h

/-- A mark that is read is well spelled. -/
theorem Mark.wellSpelled_of_lex? {chars rest : List Char} {mark : Mark}
    (h : Mark.lex? chars = some (mark, rest)) : mark.WellSpelled := by
  unfold Mark.lex? at h
  split at h
  case h_5 => cases h
  all_goals
    obtain ⟨⟨read, after⟩, hlex, heq⟩ := Option.map_eq_some_iff.mp h
    obtain ⟨rfl, _⟩ := Prod.mk.inj heq
  · trivial
  · unfold pseudo? at hlex
    split at hlex
    · exact wellSpelled_of_pseudoName? hlex
    · exact wellSpelled_of_pseudoName? hlex
    · cases hlex
  · exact wellSpelled_of_combinator? hlex
  · unfold Statement.media? at hlex
    split at hlex
    · exact isWordText_of_word? hlex
    · cases hlex

/-- All marks of a text are well spelled. -/
theorem wellSpelled_of_mem_marks {chars : List Char} {mark : Mark} (h : mark ∈ marks chars) :
    mark.WellSpelled := by
  fun_induction marks chars with
  | case1 => cases h
  | case2 c rest first after hlex ih =>
      rcases List.mem_cons.mp h with rfl | hmem
      · exact Mark.wellSpelled_of_lex? hlex
      · exact ih hmem
  | case3 c rest hlex ih => exact ih h

/-- The selector tokens of a text are well spelled. -/
theorem wellSpelled_of_mem_selectors {text : String} {token : SelectorToken}
    (h : token ∈ (parse text).selectors) : token.WellSpelled := by
  obtain ⟨mark, hmem, hmark⟩ := List.mem_filterMap.mp h
  have hspelled := wellSpelled_of_mem_marks hmem
  cases mark with
  | selector token' =>
      obtain rfl := Option.some.inj hmark
      exact hspelled
  | media _ | bracket _ => cases hmark

/-- The media alias of a text is a word. -/
theorem isWordText_of_mem_media {text name : String} (h : name ∈ (parse text).media) :
    IsWordText name := by
  obtain ⟨mark, hmem, hmark⟩ := List.exists_of_findSome?_eq_some h
  have hspelled := wellSpelled_of_mem_marks hmem
  cases mark with
  | media name' =>
      obtain rfl := Option.some.inj hmark
      exact hspelled
  | selector _ | bracket _ => cases hmark

end Statement

end StyleProps
