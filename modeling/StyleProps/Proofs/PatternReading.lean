import Mathlib.Data.List.DropRight
import StyleProps.Proofs.Lexing
import StyleProps.Proofs.Patterns

/-!
# Statements read by patterns

What the marks of a statement look like, as patterns, and a reading of statements by nothing but
these patterns: `walk` goes through a text from the left and, at each position, takes what one of
the patterns matches there; a position where none matches is passed over. `parse_eq_readByPatterns`
says that `parse` reads every text in this way.

The lexers look ahead and never go back. A pattern goes back where a repetition took too much, and
the lexers agree with it because nothing is found on the way back, with one exception: behind an
ampersand, one of the blanks that were taken may have to be given back, as it is the space that
stands for a descendant (`first?_blank_joint`).
-/

namespace StyleProps

/-- Letters, digits and underscores. -/
def CharClass.word : CharClass :=
  ⟨false, [('A', 'Z'), ('a', 'z'), ('0', '9'), ('_', '_')]⟩

/-- Blanks. -/
def CharClass.blank : CharClass :=
  .of [' ', '\t', '\n', '\x0c', '\r']

namespace Statement

open Pattern

/-! ## The patterns -/

/-- What a mark can look like. -/
inductive Shape where
  | escape
  | pseudo
  | combinator
  | media
deriving DecidableEq, Repr

/-- A word, captured: `(\w+)`. -/
def wordPattern : Pattern :=
  .capture (.plus .word)

/-- A bracket escape, with what stands in the brackets captured: `\[([^\[\]]+)\]`. -/
def escapePattern : Pattern :=
  .enclosed '[' (.plus (.except ['[', ']'])) ']'

/-- A parameter, with what stands in the parentheses captured: `\(([^()]*)\)`. -/
def parameterPattern : Pattern :=
  .enclosed '(' (.many (.except ['(', ')'])) ')'

/-- A name and a parameter, which may be left out: `(\w+)(\(([^()]*)\))?`. -/
def namePattern : Pattern :=
  .seq wordPattern (.optional parameterPattern)

/-- Blanks and a word: `\s*(\w+)`. -/
def targetPattern : Pattern :=
  .seq (.many .blank) wordPattern

/-- The symbol of a combinator and its target: `[+~> ]\s*(\w+)`. -/
def jointPattern : Pattern :=
  .seq (.one (.of ['+', '~', '>', ' '])) targetPattern

/-- The pattern of a shape. In the usual notation:
* of a bracket escape, `\[([^\[\]]+)\]`;
* of a pseudo token, `::?(\w+)(\(([^()]*)\))?`;
* of a combinator token, `&\s*[+~> ]\s*(\w+)`;
* of a media alias, `@(\w+)`. -/
def Shape.pattern : Shape → Pattern
  | .escape => escapePattern
  | .pseudo => .seq (.one (.of [':'])) (.seq (.optional (.one (.of [':']))) namePattern)
  | .combinator => .seq (.one (.of ['&'])) (.seq (.many .blank) jointPattern)
  | .media => .seq (.one (.of ['@'])) wordPattern

/-- The combinator of a text that the pattern of combinators matches: that of the symbol in it that
is no space, and a descendant if there is none. -/
def jointOf (text : List Char) : Combinator :=
  ((text.filter (· ≠ ' ')).findSome? Combinator.ofSymbol?).getD .descendant

/-- The mark for a match of the pattern of a shape. A pseudo token has a parameter if the part of
the pattern in parentheses matched. -/
def Shape.mark (shape : Shape) (found : Match) : Mark :=
  let first := found.captures.headD []
  match shape with
  | .escape => .bracket first
  | .pseudo =>
      match found.captures with
      | [name, param] => .selector (.functional (String.ofList name) (String.ofList param))
      | _ => .selector (.named (String.ofList first))
  | .combinator => .selector (.combinator (jointOf found.text) (String.ofList first))
  | .media => .media (String.ofList first)

/-! ## Reading by patterns -/

/-- The match at the front of a text, and the shape whose pattern it matches. -/
def matchAt? (chars : List Char) : Option (Shape × Match) :=
  [Shape.escape, .pseudo, .combinator, .media].findSome? fun shape =>
    (shape.pattern.first? chars).map fun found => (shape, found)

/-- What a pattern of a mark matches is not empty. -/
theorem length_of_matchAt? {chars : List Char} {shape : Shape} {found : Match}
    (h : matchAt? chars = some (shape, found)) : found.rest.length < chars.length := by
  obtain ⟨shape', _, hmatch⟩ := List.exists_of_findSome?_eq_some h
  obtain ⟨found', hfirst, heq⟩ := Option.map_eq_some_iff.mp hmatch
  obtain ⟨rfl, rfl⟩ := Prod.mk.inj heq
  cases shape' <;> exact length_rest_of_first?_one_seq hfirst

/-- The matches in a text from left to right. After a match, the walk goes on behind it, and where
nothing matches, it goes on behind the next character. -/
def walk (chars : List Char) : List (Shape × Match) :=
  match chars with
  | [] => []
  | c :: rest =>
      match _h : matchAt? (c :: rest) with
      | some (shape, found) => (shape, found) :: walk found.rest
      | none => walk rest
termination_by chars.length
decreasing_by
  · exact length_of_matchAt? _h
  · simp

/-- The leftmost match of a pattern anywhere in a text. -/
def search? (pattern : Pattern) (chars : List Char) : Option Match :=
  chars.tails.findSome? pattern.first?

/-- The value of a statement by its patterns: what stands in the leftmost bracket escape anywhere;
or the text after the last equals sign; or the whole text of a bare statement, which has no token
and no media alias; or nothing. -/
def valueByPatterns (isBare : Bool) (chars : List Char) : List Char :=
  match search? escapePattern chars with
  | some found => found.captures.headD []
  | none =>
      if '=' ∈ chars then (chars.reverse.takeWhile (· ≠ '=')).reverse
      else if isBare then chars
      else []

/-- Reads a statement by its patterns. The tokens are those of all matches in order, and the media
alias is that of the first match that has one. -/
def readByPatterns (text : String) : Statement :=
  let found := (walk text.toList).map fun (shape, found) => shape.mark found
  let selectors := found.filterMap Mark.selector?
  let media := found.findSome? Mark.media?
  let isBare := selectors.isEmpty && media.isNone
  ⟨selectors, media, String.ofList (valueByPatterns isBare text.toList)⟩

/-! ## Words and blanks -/

/-- The class of word characters. -/
theorem contains_word : CharClass.word.contains = isWord := by
  funext c
  have hunderscore : (c = '_') = ('_' ≤ c ∧ c ≤ '_') :=
    propext ⟨fun h => by rw [h]; decide, fun ⟨hlow, hhigh⟩ => Char.le_antisymm hhigh hlow⟩
  have hword : isWord c = (decide ('A' ≤ c ∧ c ≤ 'Z') ||
      (decide ('a' ≤ c) && decide (c ≤ 'z')) || (decide ('0' ≤ c) && decide (c ≤ '9')) ||
      decide (c = '_')) := rfl
  simp only [hword, hunderscore]
  simp [CharClass.contains, CharClass.word, Bool.or_assoc]

/-- The class of blanks. -/
theorem contains_blank : CharClass.blank.contains = isBlank := by
  funext c
  simp [CharClass.blank, isBlank, Bool.or_assoc]

/-- A word is matched as far as it is read. -/
theorem first?_word (chars : List Char) :
    wordPattern.first? chars =
      (word? chars).map fun (word, rest) => ⟨word.toList, [word.toList], rest⟩ := by
  rw [wordPattern, first?_capture, first?_plus, contains_word, word?]
  cases chars.takeWhile isWord with
  | nil => rfl
  | cons c rest => simp [Match.captured]

/-- No word begins with another character. -/
theorem word?_cons_of_not {c : Char} (h : isWord c = false) (rest : List Char) :
    word? (c :: rest) = none := by
  rw [word?, List.takeWhile_cons_of_neg (by simp [h])]

/-- A blank is no word character. -/
theorem isWord_of_isBlank {c : Char} (h : isBlank c = true) : isWord c = false := by
  cases hword : isWord c with
  | false => rfl
  | true => exact absurd h (by simp [isBlank_of_isWord hword])

/-- Blanks and a word are matched without a way back. -/
theorem first?_target (chars : List Char) :
    targetPattern.first? chars =
      (wordPattern.first? (chars.dropWhile isBlank)).map
        (Match.after (chars.takeWhile isBlank)) := by
  have hblank : ∀ c rest, CharClass.blank.contains c = true →
      wordPattern.first? (c :: rest) = none := by
    intro c rest hc
    rw [contains_blank] at hc
    rw [first?_word, word?_cons_of_not (isWord_of_isBlank hc), Option.map_none]
  rw [targetPattern, first?_seq_of_longestFirst (longestFirst_runs _ _) hblank, first?_many,
    contains_blank]
  rfl

/-! ## Bracket escapes and pseudo tokens -/

/-- The content of an escape is matched as far as it is read. -/
theorem first?_escape (chars : List Char) :
    escapePattern.first? chars =
      (bracket? chars).map fun (content, rest) =>
        ⟨'[' :: (content ++ [']']), [content], rest⟩ := by
  have hcontent : (CharClass.except ['[', ']']).contains = (!isBracket ·) := by
    funext c
    simp [isBracket]
  cases chars with
  | nil => rfl
  | cons c rest =>
      by_cases hc : c = '['
      · subst hc
        rw [escapePattern, first?_enclosed (longestFirst_plus _ rest) (by decide), first?_plus,
          hcontent]
        simp only [bracket?]
        generalize rest.takeWhile (!isBracket ·) = content
        generalize rest.dropWhile (!isBracket ·) = tail
        cases tail with
        | nil => cases content <;> rfl
        | cons d after =>
            by_cases hd : d = ']'
            · cases content <;> simp [hd]
            · cases content <;> simp [hd]
      · rw [escapePattern, first?_enclosed_of_ne hc, bracket?_cons_of_ne hc, Option.map_none]

/-- A parameter is matched as far as it is read. -/
theorem first?_parameter (chars : List Char) :
    parameterPattern.first? chars =
      (parameter? chars).map fun (param, rest) =>
        ⟨'(' :: (param.toList ++ [')']), [param.toList], rest⟩ := by
  have hcontent : (CharClass.except ['(', ')']).contains = (!isParenthesis ·) := by
    funext c
    simp [isParenthesis]
  cases chars with
  | nil => rfl
  | cons c rest =>
      by_cases hc : c = '('
      · subst hc
        rw [parameterPattern, first?_enclosed (longestFirst_runs _ rest) (by decide), first?_many,
          hcontent]
        simp only [parameter?]
        cases rest.dropWhile (!isParenthesis ·) with
        | nil => rfl
        | cons d after =>
            by_cases hd : d = ')'
            · simp [hd]
            · simp [hd]
      · rw [parameterPattern, first?_enclosed_of_ne hc,
          parameter?_eq_none (by simpa using hc), Option.map_none]

/-- A name is matched as far as it is read, and so is the parameter behind it. -/
theorem first?_name (chars : List Char) :
    (namePattern.first? chars).map (fun found => (Shape.pseudo.mark found, found.rest)) =
      (pseudoName? chars).map fun (token, rest) => (.selector token, rest) := by
  have htotal : ∀ rest, (optional parameterPattern).first? rest ≠ none := by
    intro rest
    rw [first?_optional]
    exact Option.some_ne_none _
  rw [namePattern, first?_seq_of_total htotal, first?_word, pseudoName?]
  cases word? chars with
  | none => rfl
  | some found =>
      obtain ⟨name, rest⟩ := found
      simp only [Option.map_some, Option.bind_some, first?_optional, first?_parameter]
      cases parameter? rest with
      | none => simp [Match.followedBy, Shape.mark]
      | some found => simp [Match.followedBy, Shape.mark]

/-- A pseudo token is matched as far as it is read. The second colon is never given back, as no name
begins with one. -/
theorem first?_pseudo (chars : List Char) :
    (Shape.pseudo.pattern.first? chars).map (fun found => (Shape.pseudo.mark found, found.rest)) =
      (pseudo? chars).map fun (token, rest) => (.selector token, rest) := by
  have hafter : ∀ (front : List Char) (found : Option Match),
      (found.map (Match.after front)).map (fun found => (Shape.pseudo.mark found, found.rest)) =
        found.map fun found => (Shape.pseudo.mark found, found.rest) := by
    intro front found
    rw [Option.map_map]
    rfl
  cases chars with
  | nil => rfl
  | cons c rest =>
      rw [Shape.pattern, first?_one_seq_cons, CharClass.contains_of]
      by_cases hc : c = ':'
      · subst hc
        rw [if_pos (by simp), hafter, first?_optional_seq]
        cases rest with
        | nil => rfl
        | cons d rest =>
            rw [first?_one_seq_cons, CharClass.contains_of]
            by_cases hd : d = ':'
            · subst hd
              have hname : namePattern.first? (':' :: rest) = none := by
                have hread := first?_name (':' :: rest)
                rw [pseudoName?, word?_cons_of_not (by decide), Option.map_none] at hread
                exact Option.map_eq_none_iff.mp hread
              rw [if_pos (by simp), hname, Option.or_none, hafter, first?_name]
              rfl
            · rw [if_neg (by simpa using hd), Option.none_or, first?_name]
              simp [pseudo?, hd]
      · rw [if_neg (by simpa using hc)]
        simp [pseudo?, hc]

/-! ## Combinator tokens -/

/-- A match with more text in front of it, twice. -/
theorem map_after_after (front back : List Char) (found : Option Match) :
    (found.map (Match.after back)).map (Match.after front) =
      found.map (Match.after (front ++ back)) := by
  cases found with
  | none => rfl
  | some found => simp [Match.after]

/-- A symbol and a target. -/
theorem first?_joint_cons (c : Char) (rest : List Char) :
    jointPattern.first? (c :: rest) =
      if c ∈ ['+', '~', '>', ' '] then (targetPattern.first? rest).map (Match.after [c])
      else none := by
  rw [jointPattern, first?_one_seq_cons, CharClass.contains_of]
  simp only [decide_eq_true_eq]

/-- The symbols of combinators. -/
theorem mem_symbols_iff {c : Char} :
    c ∈ ['+', '~', '>', ' '] ↔ ∃ joint, Combinator.ofSymbol? c = some joint := by
  constructor
  · intro h
    simp only [List.mem_cons, List.not_mem_nil, or_false] at h
    rcases h with rfl | rfl | rfl | rfl
    all_goals exact ⟨_, rfl⟩
  · rintro ⟨joint, h⟩
    unfold Combinator.ofSymbol? at h
    split at h
    case h_5 => cases h
    all_goals decide

/-- Blanks, a symbol and a target. Either all blanks are taken and the symbol follows them, or one
of them is given back as the symbol, and a word follows them. -/
theorem first?_blank_joint (chars : List Char) :
    (seq (many .blank) jointPattern).first? chars =
      ((jointPattern.first? (chars.dropWhile isBlank)).map
          (Match.after (chars.takeWhile isBlank))).or
        (if ' ' ∈ chars.takeWhile isBlank then
          (wordPattern.first? (chars.dropWhile isBlank)).map
            (Match.after (chars.takeWhile isBlank))
        else none) := by
  induction chars with
  | nil => rfl
  | cons c rest ih =>
      rw [first?_many_seq_cons, contains_blank, ih]
      by_cases hc : isBlank c = true
      · have hsymbol : c ∈ ['+', '~', '>', ' '] ↔ ' ' = c := by
          simp only [isBlank, Bool.or_eq_true, decide_eq_true_eq] at hc
          rcases hc with (((rfl | rfl) | rfl) | rfl) | rfl <;> decide
        -- The space is the first blank or stands among the others.
        have heither : ∀ (p q : Prop) [Decidable p] [Decidable q] (found : Option Match),
            (if p then found else none).or (if q then found else none) =
              if q ∨ p then found else none := by
          intro p q _ _ found
          by_cases hp : p <;> by_cases hq : q <;> simp [hp, hq]
        rw [if_pos hc, List.takeWhile_cons_of_pos hc, List.dropWhile_cons_of_pos hc,
          first?_joint_cons, first?_target, Option.map_or, Option.or_assoc, map_after_after,
          apply_ite (Option.map (Match.after [c])), map_after_after, Option.map_none]
        simp only [hsymbol, heither, List.mem_cons, List.singleton_append]
      · rw [if_neg hc, List.takeWhile_cons_of_neg hc, List.dropWhile_cons_of_neg hc, Option.none_or]
        simp only [List.not_mem_nil, if_false, Option.or_none]
        cases jointPattern.first? (c :: rest) <;> rfl

/-- Of a space and a tab, the tab is given back first, and then the space, which is a symbol. -/
example : (seq (many .blank) jointPattern).first? [' ', '\t', 'l', 'i'] =
    some ⟨[' ', '\t', 'l', 'i'], [['l', 'i']], []⟩ := by
  rfl

/-- Whether a character is no symbol of a combinator but the space. -/
def IsSilent (c : Char) : Prop :=
  c = ' ' ∨ Combinator.ofSymbol? c = none

/-- Blanks are no symbols but the space. -/
theorem isSilent_of_isBlank {c : Char} (h : isBlank c = true) : IsSilent c := by
  simp only [isBlank, Bool.or_eq_true, decide_eq_true_eq] at h
  rcases h with (((rfl | rfl) | rfl) | rfl) | rfl
  · exact Or.inl rfl
  all_goals exact Or.inr rfl

/-- Word characters are no symbols. -/
theorem isSilent_of_isWord {c : Char} (h : isWord c = true) : IsSilent c := by
  refine Or.inr ?_
  unfold Combinator.ofSymbol?
  split
  case h_5 => rfl
  all_goals cases h

/-- Where there is no symbol but the space, none is found. -/
theorem findSome?_of_isSilent {chars : List Char} (h : ∀ c ∈ chars, IsSilent c) :
    (chars.filter (· ≠ ' ')).findSome? Combinator.ofSymbol? = none := by
  refine List.findSome?_eq_none_iff.mpr fun c hc => ?_
  obtain ⟨hmem, hne⟩ := List.mem_filter.mp hc
  exact (h c hmem).resolve_left (by simpa using hne)

/-- Without another symbol, the space stands for a descendant. -/
theorem jointOf_of_isSilent {chars : List Char} (h : ∀ c ∈ chars, IsSilent c) :
    jointOf chars = .descendant := by
  rw [jointOf, findSome?_of_isSilent h, Option.getD_none]

/-- Where there is one symbol that is no space, it tells the combinator. -/
theorem jointOf_append_cons {front back : List Char} {c : Char} {joint : Combinator}
    (hfront : ∀ d ∈ front, IsSilent d) (hne : c ≠ ' ')
    (hsymbol : Combinator.ofSymbol? c = some joint) : jointOf (front ++ c :: back) = joint := by
  rw [jointOf, List.filter_append, List.findSome?_append, findSome?_of_isSilent hfront,
    Option.none_or, List.filter_cons_of_pos (by simpa using hne), List.findSome?_cons, hsymbol]
  rfl

/-- A target does not change the combinator. -/
theorem jointOf_append {front back : List Char} (h : ∀ c ∈ back, IsSilent c) :
    jointOf (front ++ back) = jointOf front := by
  rw [jointOf, List.filter_append, List.findSome?_append, findSome?_of_isSilent h, Option.or_none]
  rfl

/-- What no blank is dropped before is no blank. -/
theorem isBlank_of_dropWhile {chars after : List Char} {c : Char}
    (h : chars.dropWhile isBlank = c :: after) : isBlank c = false := by
  have hhead := List.head?_dropWhile_not isBlank chars
  simpa [h] using hhead

/-- Behind blanks and a symbol, blanks and a word. -/
theorem first?_blank_joint_of_some {chars after : List Char} {c : Char} {joint : Combinator}
    (hdrop : chars.dropWhile isBlank = c :: after)
    (hsymbol : Combinator.ofSymbol? c = some joint) :
    (seq (many .blank) jointPattern).first? chars =
      (wordPattern.first? (after.dropWhile isBlank)).map
        (Match.after (chars.takeWhile isBlank ++ [c] ++ after.takeWhile isBlank)) := by
  have hsilent : ¬ IsSilent c := by
    rintro (rfl | hnone)
    · cases isBlank_of_dropWhile hdrop
    · rw [hsymbol] at hnone
      cases hnone
  have hword : isWord c = false := by simpa using mt isSilent_of_isWord hsilent
  rw [first?_blank_joint, hdrop, first?_joint_cons,
    if_pos (mem_symbols_iff.mpr ⟨joint, hsymbol⟩), first?_target, map_after_after,
    map_after_after, first?_word (c :: after), word?_cons_of_not hword, Option.map_none,
    Option.map_none, ite_self, Option.or_none]

/-- Behind blanks without a symbol, a word, if one of the blanks is a space. -/
theorem first?_blank_joint_of_none {chars : List Char}
    (h : ∀ c ∈ (chars.dropWhile isBlank).head?, Combinator.ofSymbol? c = none) :
    (seq (many .blank) jointPattern).first? chars =
      if ' ' ∈ chars.takeWhile isBlank then
        (wordPattern.first? (chars.dropWhile isBlank)).map (Match.after (chars.takeWhile isBlank))
      else none := by
  have hjoint : jointPattern.first? (chars.dropWhile isBlank) = none := by
    cases hdrop : chars.dropWhile isBlank with
    | nil => rfl
    | cons c after =>
        rw [first?_joint_cons, if_neg]
        intro hmem
        obtain ⟨joint, hsymbol⟩ := mem_symbols_iff.mp hmem
        rw [hdrop] at h
        cases (h c rfl).symm.trans hsymbol
  rw [first?_blank_joint, hjoint, Option.map_none, Option.none_or]

/-- A symbol behind blanks is read. -/
theorem symbol?_of_ofSymbol? {chars after : List Char} {c : Char} {joint : Combinator}
    (h : chars.dropWhile isBlank = c :: after) (hne : c ≠ ' ')
    (hsymbol : Combinator.ofSymbol? c = some joint) : symbol? chars = some (joint, after) := by
  unfold Combinator.ofSymbol? at hsymbol
  split at hsymbol
  case h_4 => exact absurd rfl hne
  case h_5 => cases hsymbol
  all_goals
    obtain rfl := Option.some.inj hsymbol
    simp only [symbol?, h]

/-- Without a symbol behind them, the blanks are read, and one of them must be a space. -/
theorem symbol?_of_none {chars : List Char}
    (h : ∀ c ∈ (chars.dropWhile isBlank).head?, Combinator.ofSymbol? c = none) :
    symbol? chars =
      if ' ' ∈ chars.takeWhile isBlank then some (.descendant, chars.dropWhile isBlank)
      else none := by
  unfold symbol?
  dsimp only
  split
  case h_4 => rfl
  all_goals
    next heq =>
      rw [heq] at h
      cases h _ rfl

/-- Behind blanks, either there is a symbol, which is no blank, or there is none. -/
theorem symbol_or_none (chars : List Char) :
    (∃ c joint after, chars.dropWhile isBlank = c :: after ∧ c ≠ ' ' ∧
      Combinator.ofSymbol? c = some joint) ∨
      ∀ c ∈ (chars.dropWhile isBlank).head?, Combinator.ofSymbol? c = none := by
  cases hdrop : chars.dropWhile isBlank with
  | nil => exact Or.inr fun c hc => nomatch hc
  | cons c after =>
      cases hsymbol : Combinator.ofSymbol? c with
      | none =>
          refine Or.inr fun d hd => ?_
          obtain rfl := Option.some.inj hd
          exact hsymbol
      | some joint =>
          refine Or.inl ⟨c, joint, after, rfl, ?_, hsymbol⟩
          rintro rfl
          cases isBlank_of_dropWhile hdrop

/-- A target behind a symbol is read, with the combinator of the text before it. -/
theorem map_first?_word (front chars : List Char) :
    ((wordPattern.first? chars).map (Match.after front)).map
        (fun found => (Shape.combinator.mark found, found.rest)) =
      (word? chars).map fun (target, rest) =>
        (.selector (.combinator (jointOf front) target), rest) := by
  rw [first?_word, Option.map_map, Option.map_map]
  refine Option.map_congr fun (target, rest) hword => ?_
  have htarget : ∀ c ∈ target.toList, IsSilent c := fun c hc =>
    isSilent_of_isWord ((isWordText_of_word? hword).2 c hc)
  simp [Match.after, Shape.mark, jointOf_append htarget]

/-- A combinator token is matched as it is read. -/
theorem first?_combinator (chars : List Char) :
    (Shape.combinator.pattern.first? chars).map
        (fun found => (Shape.combinator.mark found, found.rest)) =
      (combinator? chars).map fun (token, rest) => (.selector token, rest) := by
  cases chars with
  | nil => rfl
  | cons c rest =>
      rw [Shape.pattern, first?_one_seq_cons, CharClass.contains_of]
      by_cases hc : c = '&'
      case neg =>
        rw [if_neg (by simpa using hc)]
        simp [combinator?, hc]
      subst hc
      have hblanks : ∀ c ∈ '&' :: rest.takeWhile isBlank, IsSilent c := by
        intro c hc
        rcases List.mem_cons.mp hc with rfl | hblank
        · exact Or.inr rfl
        · exact isSilent_of_isBlank (List.all_eq_true.mp List.all_takeWhile c hblank)
      rw [if_pos (by simp), combinator?]
      rcases symbol_or_none rest with ⟨c, joint, after, hdrop, hne, hsymbol⟩ | hnone
      · have hjoint : jointOf (['&'] ++ (rest.takeWhile isBlank ++ [c] ++
            after.takeWhile isBlank)) = joint := by
          simpa using jointOf_append_cons hblanks hne hsymbol
        rw [first?_blank_joint_of_some hdrop hsymbol, symbol?_of_ofSymbol? hdrop hne hsymbol,
          map_after_after, map_first?_word, hjoint]
        simp only [Option.map_map]
        rfl
      · rw [first?_blank_joint_of_none hnone, symbol?_of_none hnone]
        by_cases hspace : ' ' ∈ rest.takeWhile isBlank
        · have hdescendant : jointOf (['&'] ++ rest.takeWhile isBlank) = .descendant :=
            jointOf_of_isSilent hblanks
          rw [if_pos hspace, if_pos hspace, map_after_after, map_first?_word, hdescendant]
          simp only [List.dropWhile_idempotent, Option.map_map]
          rfl
        · rw [if_neg hspace, if_neg hspace]
          rfl

/-! ## Whole statements -/

/-- What is read at the front of a text as a mark of a shape. -/
def Shape.lex? (shape : Shape) (chars : List Char) : Option (Mark × List Char) :=
  match shape with
  | .escape => (bracket? chars).map fun (content, rest) => (.bracket content, rest)
  | .pseudo => (pseudo? chars).map fun (token, rest) => (.selector token, rest)
  | .combinator => (combinator? chars).map fun (token, rest) => (.selector token, rest)
  | .media => (Statement.media? chars).map fun (name, rest) => (.media name, rest)

/-- Marks of every shape are matched as they are read. -/
theorem map_first?_pattern (shape : Shape) (chars : List Char) :
    (shape.pattern.first? chars).map (fun found => (shape.mark found, found.rest)) =
      shape.lex? chars := by
  cases shape with
  | escape =>
      rw [Shape.pattern, first?_escape, Option.map_map]
      rfl
  | pseudo => exact first?_pseudo chars
  | combinator => exact first?_combinator chars
  | media =>
      cases chars with
      | nil => rfl
      | cons c rest =>
          rw [Shape.pattern, first?_one_seq_cons, CharClass.contains_of]
          by_cases hc : c = '@'
          · subst hc
            rw [if_pos (by simp), first?_word]
            show _ = (word? rest).map fun (name, after) => (Mark.media name, after)
            cases word? rest with
            | none => rfl
            | some found => simp [Shape.mark, Match.after]
          · rw [if_neg (by simpa using hc)]
            simp [Shape.lex?, Statement.media?, hc]

/-- The character that marks of a shape begin with. -/
def Shape.opening : Shape → Char
  | .escape => '['
  | .pseudo => ':'
  | .combinator => '&'
  | .media => '@'

/-- No mark of a shape begins with another character. -/
theorem Shape.lex?_cons_of_ne {shape : Shape} {c : Char} (h : c ≠ shape.opening)
    (rest : List Char) : shape.lex? (c :: rest) = none := by
  cases shape with
  | escape => rw [Shape.lex?, bracket?_cons_of_ne h, Option.map_none]
  | pseudo =>
      have hc : c ≠ ':' := h
      simp [Shape.lex?, pseudo?, hc]
  | combinator =>
      have hc : c ≠ '&' := h
      simp [Shape.lex?, combinator?, hc]
  | media =>
      have hc : c ≠ '@' := h
      simp [Shape.lex?, Statement.media?, hc]

/-- A mark at the front of a text is one of the shape that its first character tells. -/
theorem lex?_eq_findSome? (chars : List Char) :
    Mark.lex? chars =
      [Shape.escape, .pseudo, .combinator, .media].findSome? fun shape => shape.lex? chars := by
  cases chars with
  | nil => rfl
  | cons c rest =>
      have hother : ∀ shape : Shape, c ≠ shape.opening → shape.lex? (c :: rest) = none :=
        fun shape h => Shape.lex?_cons_of_ne h rest
      simp only [List.findSome?_cons, List.findSome?_nil]
      by_cases hescape : c = '['
      · subst hescape
        rw [hother .pseudo (by decide), hother .combinator (by decide), hother .media (by decide)]
        show Shape.escape.lex? ('[' :: rest) = _
        cases Shape.escape.lex? ('[' :: rest) <;> rfl
      by_cases hpseudo : c = ':'
      · subst hpseudo
        rw [hother .escape (by decide), hother .combinator (by decide), hother .media (by decide)]
        show Shape.pseudo.lex? (':' :: rest) = _
        cases Shape.pseudo.lex? (':' :: rest) <;> rfl
      by_cases hcombinator : c = '&'
      · subst hcombinator
        rw [hother .escape (by decide), hother .pseudo (by decide), hother .media (by decide)]
        show Shape.combinator.lex? ('&' :: rest) = _
        cases Shape.combinator.lex? ('&' :: rest) <;> rfl
      by_cases hmedia : c = '@'
      · subst hmedia
        rw [hother .escape (by decide), hother .pseudo (by decide), hother .combinator (by decide)]
        show Shape.media.lex? ('@' :: rest) = _
        cases Shape.media.lex? ('@' :: rest) <;> rfl
      rw [hother .escape hescape, hother .pseudo hpseudo, hother .combinator hcombinator,
        hother .media hmedia]
      exact lex?_eq_none (by simp [hescape, hpseudo, hcombinator, hmedia]) rest

/-- The match at a position is the mark that is read there. -/
theorem map_matchAt? (chars : List Char) :
    (matchAt? chars).map (fun (shape, found) => (shape.mark found, found.rest)) =
      Mark.lex? chars := by
  rw [matchAt?, lex?_eq_findSome?, List.map_findSome?]
  congr 1
  funext shape
  rw [← map_first?_pattern, Function.comp_apply, Option.map_map]
  rfl

/-- The matches of a walk are the marks of the text. -/
theorem map_walk (chars : List Char) :
    (walk chars).map (fun (shape, found) => shape.mark found) = marks chars := by
  fun_induction walk chars with
  | case1 => rw [marks_nil, List.map_nil]
  | case2 c rest shape found hmatch ih =>
      have hlex := map_matchAt? (c :: rest)
      rw [hmatch] at hlex
      rw [marks_of_lex? hlex.symm, ← ih, List.map_cons]
  | case3 c rest hmatch ih =>
      have hlex := map_matchAt? (c :: rest)
      rw [hmatch] at hlex
      rw [marks_cons_of_none hlex.symm, ih]

/-- The leftmost match of a bracket escape is the first one that is read. -/
theorem map_search?_escape (chars : List Char) :
    (search? escapePattern chars).map (fun found => found.captures.headD []) =
      firstBracket? chars := by
  rw [search?, List.map_findSome?]
  induction chars with
  | nil => rfl
  | cons c rest ih =>
      rw [List.tails, List.findSome?_cons, ih, Function.comp_apply, first?_escape, firstBracket?]
      cases bracket? (c :: rest) <;> rfl

/-- What stands behind the last separator, if there is one. -/
theorem afterLast?_eq (separator : Char) (chars : List Char) :
    Text.afterLast? separator chars =
      if separator ∈ chars then some (chars.reverse.takeWhile (· ≠ separator)).reverse
      else none := by
  induction chars with
  | nil => rfl
  | cons c rest ih =>
      rw [Text.afterLast?, ih, List.reverse_cons]
      by_cases hrest : separator ∈ rest
      · -- The last separator stands in the rest, so that nothing before it matters.
        have hstops : (rest.reverse.takeWhile (· ≠ separator)).length ≠ rest.reverse.length := by
          intro hlength
          have hall := (List.takeWhile_prefix (· ≠ separator)).eq_of_length hlength
          have hmem : separator ∈ rest.reverse.takeWhile (· ≠ separator) := by
            rw [hall]
            exact List.mem_reverse.mpr hrest
          simpa using List.all_eq_true.mp List.all_takeWhile separator hmem
        rw [if_pos hrest, if_pos (List.mem_cons_of_mem c hrest), List.takeWhile_append,
          if_neg hstops]
      · have hfront : ∀ d ∈ rest.reverse, decide (d ≠ separator) = true := by
          intro d hd
          rw [decide_eq_true_eq]
          rintro rfl
          exact hrest (List.mem_reverse.mp hd)
        rw [if_neg hrest, List.takeWhile_append_of_pos hfront]
        by_cases hc : c = separator
        · simp [hc]
        · simp [hc, hrest, Ne.symm hc]

/-- The value of a statement is that which its patterns tell. -/
theorem rawValue_eq_valueByPatterns (isBare : Bool) (chars : List Char) :
    rawValue (!isBare) chars = valueByPatterns isBare chars := by
  rw [rawValue, valueByPatterns, ← map_search?_escape, afterLast?_eq]
  cases search? escapePattern chars with
  | some found => rfl
  | none =>
      by_cases hequals : '=' ∈ chars
      · simp only [hequals, Option.map_none, if_true]
      · simp only [hequals, Option.map_none, if_false]
        cases isBare <;> rfl

/-- Every text is read as its patterns say, which are matched greedily and with backtracking: the
tokens and the media alias by a walk from the left that takes the match at each position or passes
over it, and the value by the leftmost bracket escape and the last equals sign. -/
theorem parse_eq_readByPatterns (text : String) : parse text = readByPatterns text := by
  have hbare : ∀ (selectors : List SelectorToken) (media : Option String),
      (!selectors.isEmpty || media.isSome) = !(selectors.isEmpty && media.isNone) := by
    intro selectors media
    cases selectors <;> cases media <;> rfl
  simp only [parse, readByPatterns, map_walk, hbare, rawValue_eq_valueByPatterns]
  rfl

end Statement

end StyleProps
