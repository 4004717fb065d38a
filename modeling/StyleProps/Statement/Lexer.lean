import StyleProps.Statement.Token

/-!
# Marks of a statement

What a statement may hold besides plain text: bracket escapes `[…]`, selector tokens and media
aliases. Each function reads one mark at the front of a text and returns the characters after it.

* A bracket escape holds at least one character and no bracket.
* A pseudo token is one or two colons and a word; a parameter without parentheses may follow it in
  parentheses.
* A combinator token is an ampersand, blanks that may hold one of `>`, `~` and `+`, and a word.
  Without a symbol the blanks must hold a space.
* A media alias is an at sign and a word.

A word is one or more ASCII letters, digits and underscores.
-/

namespace StyleProps.Statement

/-- Whether a character may stand in a word. -/
def isWord (c : Char) : Bool :=
  c.isAlphanum || c = '_'

/-- The blanks of ASCII, without the vertical tab. -/
def isBlank (c : Char) : Bool :=
  c = ' ' || c = '\t' || c = '\n' || c = '\x0c' || c = '\r'

/-- Whether a character is a square bracket. -/
def isBracket (c : Char) : Bool :=
  c = '[' || c = ']'

/-- Whether a character is a parenthesis. -/
def isParenthesis (c : Char) : Bool :=
  c = '(' || c = ')'

/-- The word at the front. -/
def word? (chars : List Char) : Option (String × List Char) :=
  match chars.takeWhile isWord with
  | [] => none
  | word => some (String.ofList word, chars.dropWhile isWord)

/-- The content of the bracket escape at the front. -/
def bracket? : List Char → Option (List Char × List Char)
  | '[' :: rest =>
      match rest.dropWhile (!isBracket ·) with
      | ']' :: after =>
          let content := rest.takeWhile (!isBracket ·)
          if content.isEmpty then none else some (content, after)
      | _ => none
  | _ => none

/-- The parameter in parentheses at the front. -/
def parameter? : List Char → Option (String × List Char)
  | '(' :: rest =>
      match rest.dropWhile (!isParenthesis ·) with
      | ')' :: after => some (String.ofList (rest.takeWhile (!isParenthesis ·)), after)
      | _ => none
  | _ => none

/-- The name of a pseudo token and its parameter, if there is one. -/
def pseudoName? (chars : List Char) : Option (SelectorToken × List Char) :=
  match word? chars with
  | none => none
  | some (name, rest) =>
      match parameter? rest with
      | some (param, after) => some (.functional name param, after)
      -- Parentheses that are not closed stay in the text after the token.
      | none => some (.named name, rest)

/-- The pseudo token at the front. -/
def pseudo? : List Char → Option (SelectorToken × List Char)
  | ':' :: ':' :: rest => pseudoName? rest
  | ':' :: rest => pseudoName? rest
  | _ => none

/-- The combinator that an ampersand is followed by, and the characters after its symbol. -/
def symbol? (chars : List Char) : Option (Combinator × List Char) :=
  let rest := chars.dropWhile isBlank
  match rest with
  | '>' :: after => some (.child, after)
  | '~' :: after => some (.generalSibling, after)
  | '+' :: after => some (.adjacentSibling, after)
  | _ => if ' ' ∈ chars.takeWhile isBlank then some (.descendant, rest) else none

/-- The combinator token at the front. -/
def combinator? : List Char → Option (SelectorToken × List Char)
  | '&' :: rest =>
      match symbol? rest with
      | none => none
      | some (joint, rest) =>
          (word? (rest.dropWhile isBlank)).map fun (target, after) =>
            (.combinator joint target, after)
  | _ => none

/-- The media alias at the front. -/
def media? : List Char → Option (String × List Char)
  | '@' :: rest => word? rest
  | _ => none

/-- A mark of a statement. -/
inductive Mark where
  /-- A selector token. -/
  | selector (token : SelectorToken)
  /-- A media alias. -/
  | media (name : String)
  /-- A bracket escape. -/
  | bracket (content : List Char)
deriving DecidableEq, Repr

/-- The mark at the front. -/
def Mark.lex? (chars : List Char) : Option (Mark × List Char) :=
  match chars with
  | '[' :: _ => (bracket? chars).map fun (content, after) => (.bracket content, after)
  | ':' :: _ => (pseudo? chars).map fun (token, after) => (.selector token, after)
  | '&' :: _ => (combinator? chars).map fun (token, after) => (.selector token, after)
  | '@' :: _ => (media? chars).map fun (name, after) => (.media name, after)
  | _ => none

/-- The selector token of a mark that is one. -/
def Mark.selector? : Mark → Option SelectorToken
  | .selector token => some token
  | _ => none

/-- The media alias of a mark that is one. -/
def Mark.media? : Mark → Option String
  | .media name => some name
  | _ => none

/-- Dropping characters from the front leaves no more than there were. -/
theorem length_dropWhile_le (p : Char → Bool) (chars : List Char) :
    (chars.dropWhile p).length ≤ chars.length :=
  (List.dropWhile_suffix p).length_le

/-- A word is read from the front. -/
theorem length_of_word? {chars rest : List Char} {word : String}
    (h : word? chars = some (word, rest)) : rest.length < chars.length := by
  unfold word? at h
  split at h
  · simp at h
  · next hne =>
      simp only [Option.some.injEq, Prod.mk.injEq] at h
      obtain ⟨_, rfl⟩ := h
      cases chars with
      | nil => simp at hne
      | cons c tail =>
          by_cases hc : isWord c = true
          · have := length_dropWhile_le isWord tail
            simp only [List.dropWhile_cons, hc, if_true, List.length_cons]
            omega
          · simp [hc] at hne

/-- A bracket escape is read from the front. -/
theorem length_of_bracket? {chars content rest : List Char}
    (h : bracket? chars = some (content, rest)) : rest.length < chars.length := by
  unfold bracket? at h
  split at h
  · rename_i tail
    have hlen := length_dropWhile_le (!isBracket ·) tail
    split at h
    · rename_i hdrop
      dsimp only at h
      split at h
      · simp at h
      · simp only [Option.some.injEq, Prod.mk.injEq] at h
        obtain ⟨_, rfl⟩ := h
        rw [hdrop] at hlen
        simp only [List.length_cons] at hlen ⊢
        omega
    · simp at h
  · simp at h

/-- A parameter is read from the front. -/
theorem length_of_parameter? {chars rest : List Char} {param : String}
    (h : parameter? chars = some (param, rest)) : rest.length < chars.length := by
  unfold parameter? at h
  split at h
  · rename_i tail
    have hlen := length_dropWhile_le (!isParenthesis ·) tail
    split at h
    · rename_i hdrop
      simp only [Option.some.injEq, Prod.mk.injEq] at h
      obtain ⟨_, rfl⟩ := h
      rw [hdrop] at hlen
      simp only [List.length_cons] at hlen ⊢
      omega
    · simp at h
  · simp at h

/-- The name of a pseudo token is read from the front. -/
theorem length_of_pseudoName? {chars rest : List Char} {token : SelectorToken}
    (h : pseudoName? chars = some (token, rest)) : rest.length < chars.length := by
  unfold pseudoName? at h
  split at h
  · simp at h
  · rename_i hword
    have hlen := length_of_word? hword
    split at h
    · rename_i hparam
      have := length_of_parameter? hparam
      simp only [Option.some.injEq, Prod.mk.injEq] at h
      obtain ⟨_, rfl⟩ := h
      omega
    · simp only [Option.some.injEq, Prod.mk.injEq] at h
      obtain ⟨_, rfl⟩ := h
      exact hlen

/-- A pseudo token is read from the front. -/
theorem length_of_pseudo? {chars rest : List Char} {token : SelectorToken}
    (h : pseudo? chars = some (token, rest)) : rest.length < chars.length := by
  unfold pseudo? at h
  split at h
  · have := length_of_pseudoName? h
    simp only [List.length_cons]
    omega
  · have := length_of_pseudoName? h
    simp only [List.length_cons]
    omega
  · simp at h

/-- Reading the symbol of a combinator adds no characters. -/
theorem length_of_symbol? {chars rest : List Char} {joint : Combinator}
    (h : symbol? chars = some (joint, rest)) : rest.length ≤ chars.length := by
  have hlen := length_dropWhile_le isBlank chars
  unfold symbol? at h
  dsimp only at h
  split at h
  case h_4 =>
    split at h
    · simp only [Option.some.injEq, Prod.mk.injEq] at h
      obtain ⟨_, rfl⟩ := h
      exact hlen
    · simp at h
  all_goals
    rename_i hdrop
    rw [hdrop] at hlen
    simp only [Option.some.injEq, Prod.mk.injEq] at h
    obtain ⟨_, rfl⟩ := h
    simp only [List.length_cons] at hlen
    omega

/-- A combinator token is read from the front. -/
theorem length_of_combinator? {chars rest : List Char} {token : SelectorToken}
    (h : combinator? chars = some (token, rest)) : rest.length < chars.length := by
  unfold combinator? at h
  split at h
  · split at h
    · simp at h
    · rename_i hsymbol
      have hlen := length_of_symbol? hsymbol
      simp only [Option.map_eq_some_iff, Prod.mk.injEq, Prod.exists] at h
      obtain ⟨_, _, hword, _, rfl⟩ := h
      have hword := length_of_word? hword
      have hdrop := length_dropWhile_le isBlank
      simp only [List.length_cons]
      exact Nat.lt_succ_of_lt (Nat.lt_of_lt_of_le hword (Nat.le_trans (hdrop _) hlen))
  · simp at h

/-- A media alias is read from the front. -/
theorem length_of_media? {chars rest : List Char} {name : String}
    (h : media? chars = some (name, rest)) : rest.length < chars.length := by
  unfold media? at h
  split at h
  · have := length_of_word? h
    simp only [List.length_cons]
    omega
  · simp at h

/-- A mark is read from the front. -/
theorem Mark.length_of_lex? {chars rest : List Char} {mark : Mark}
    (h : Mark.lex? chars = some (mark, rest)) : rest.length < chars.length := by
  unfold Mark.lex? at h
  split at h
  case h_5 => simp at h
  all_goals
    simp only [Option.map_eq_some_iff, Prod.mk.injEq, Prod.exists] at h
    obtain ⟨_, _, hlex, _, rfl⟩ := h
  · exact length_of_bracket? hlex
  · exact length_of_pseudo? hlex
  · exact length_of_combinator? hlex
  · exact length_of_media? hlex

end StyleProps.Statement
