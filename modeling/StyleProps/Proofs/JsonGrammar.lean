import StyleProps.Json.Parser

/-!
# The grammar of JSON

What a JSON text is, without saying how it is read or written. A text spells a sequence of tokens
with blanks between them (`Spells`). A string may spell a character in several ways (`CharText`); a
number is spelled by its sign, its digits, a fraction and an exponent (`NumeralText`). A document is
a text that spells tokens that make up one value (`ValueTokens`), whose arrays and objects are not
nested too deeply (`IsDocument`). `isDocument_iff` says that a value is made up by one sequence of
tokens only, the one that `tokens` lists.
-/

namespace StyleProps.Json

/-- What holds of a value as soon as it holds of the items or members inside it holds of every
value. -/
theorem tree_induction {motive : Json → Prop} (null : motive .null)
    (bool : ∀ b, motive (.bool b)) (number : ∀ n, motive (.number n))
    (string : ∀ text, motive (.string text))
    (array : ∀ items, (∀ item ∈ items, motive item) → motive (.array items))
    (object : ∀ members, (∀ member ∈ members, motive member.2) → motive (.object members))
    (value : Json) : motive value := by
  cases value with
  | null => exact null
  | bool b => exact bool b
  | number n => exact number n
  | string text => exact string text
  | array items =>
      exact array items fun item _ =>
        tree_induction null bool number string array object item
  | object members =>
      exact object members fun member _ =>
        tree_induction null bool number string array object member.2
termination_by sizeOf value
decreasing_by
  · have hlt := List.sizeOf_lt_of_mem ‹item ∈ items›
    rw [Json.array.sizeOf_spec]
    omega
  · have hlt := List.sizeOf_lt_of_mem ‹member ∈ members›
    have hmember : sizeOf member = 1 + sizeOf member.1 + sizeOf member.2 := rfl
    rw [Json.object.sizeOf_spec]
    omega

/-! ## Strings -/

/-- The four hexadecimal digits that spell a sixteen-bit unit. -/
inductive UnitText : Nat → List Char → Prop where
  | intro {a b c d : Char} {i j k l : Nat} (ha : Text.hexValue? a = some i)
      (hb : Text.hexValue? b = some j) (hc : Text.hexValue? c = some k)
      (hd : Text.hexValue? d = some l) :
      UnitText (((i * 16 + j) * 16 + k) * 16 + l) [a, b, c, d]

/-- The letters that spell one character after a backslash. -/
def shortEscapes : List (Char × Char) :=
  [('"', '"'), ('\\', '\\'), ('/', '/'), ('b', '\x08'), ('f', '\x0c'), ('n', '\n'), ('r', '\r'),
    ('t', '\t')]

/-- The units of the first halves of surrogate pairs. -/
def IsHighSurrogate (unit : Nat) : Prop :=
  0xD800 ≤ unit ∧ unit ≤ 0xDBFF

/-- The units of the second halves of surrogate pairs. -/
def IsLowSurrogate (unit : Nat) : Prop :=
  0xDC00 ≤ unit ∧ unit ≤ 0xDFFF

/-- The texts that spell a character inside a string. -/
inductive CharText : Char → List Char → Prop where
  | plain {c : Char} (hquote : c ≠ '"') (hbackslash : c ≠ '\\') (hcontrol : 0x20 ≤ c.toNat) :
      CharText c [c]
  | short {letter c : Char} (h : (letter, c) ∈ shortEscapes) : CharText c ['\\', letter]
  | unit {n : Nat} {text : List Char} (h : UnitText n text) (hhigh : ¬ IsHighSurrogate n)
      (hlow : ¬ IsLowSurrogate n) : CharText (Char.ofNat n) ('\\' :: 'u' :: text)
  | pair {high low : Nat} {first second : List Char} (hfirst : UnitText high first)
      (hsecond : UnitText low second) (hhigh : IsHighSurrogate high) (hlow : IsLowSurrogate low) :
      CharText (Char.ofNat (0x10000 + (high - 0xD800) * 0x400 + (low - 0xDC00)))
        ('\\' :: 'u' :: (first ++ '\\' :: 'u' :: second))

/-- The texts that spell the characters of a string, one after another. -/
inductive BodyText : List Char → List Char → Prop where
  | nil : BodyText [] []
  | cons {c : Char} {body first rest : List Char} (hfirst : CharText c first)
      (hrest : BodyText body rest) : BodyText (c :: body) (first ++ rest)

/-! ## Numbers -/

/-- At least one digit, and nothing else. -/
def IsDigits (chars : List Char) : Prop :=
  chars ≠ [] ∧ ∀ c ∈ chars, Decimal.isDigit c = true

/-- The digits before the point of a number: a zero alone, or digits that begin with no zero. -/
inductive WholeText : List Char → Prop where
  | zero : WholeText ['0']
  | digits {chars : List Char} (h : IsDigits chars) (hhead : chars.head? ≠ some '0') :
      WholeText chars

/-- The texts that spell a fraction or the lack of one. -/
inductive FractionText : Option (List Char) → List Char → Prop where
  | absent : FractionText none []
  | present {digits : List Char} (h : IsDigits digits) : FractionText (some digits) ('.' :: digits)

/-- The signs of an exponent, each with the factor that it stands for. -/
def exponentSigns : List (List Char × Int) :=
  [([], 1), (['+'], 1), (['-'], -1)]

/-- The texts that spell an exponent or the lack of one. -/
inductive ExponentText : Option Int → List Char → Prop where
  | absent : ExponentText none []
  | present {letter : Char} {sign digits : List Char} {factor : Int}
      (hletter : letter = 'e' ∨ letter = 'E') (hsign : (sign, factor) ∈ exponentSigns)
      (hdigits : IsDigits digits) :
      ExponentText (some (factor * Decimal.value digits)) (letter :: (sign ++ digits))

/-- The sign that a numeral is written with. -/
def Numeral.sign (numeral : Numeral) : List Char :=
  if numeral.negative then ['-'] else []

/-- The texts that spell a numeral without its sign. -/
inductive NumeralText (numeral : Numeral) : List Char → Prop where
  | intro {fraction exponent : List Char} (hwhole : WholeText numeral.whole)
      (hfraction : FractionText numeral.fraction fraction)
      (hexponent : ExponentText numeral.exponent exponent) :
      NumeralText numeral (numeral.whole ++ (fraction ++ exponent))

/-! ## Documents -/

/-- The texts that spell a token. A number whose numeral is out of range has none. -/
inductive Lexeme : Token → List Char → Prop where
  | leftBracket : Lexeme .leftBracket ['[']
  | rightBracket : Lexeme .rightBracket [']']
  | leftBrace : Lexeme .leftBrace ['\x7b']
  | rightBrace : Lexeme .rightBrace ['\x7d']
  | comma : Lexeme .comma [',']
  | colon : Lexeme .colon [':']
  | nullWord : Lexeme .null ['n', 'u', 'l', 'l']
  | trueWord : Lexeme (.bool true) ['t', 'r', 'u', 'e']
  | falseWord : Lexeme (.bool false) ['f', 'a', 'l', 's', 'e']
  | string {body text : List Char} (h : BodyText body text) :
      Lexeme (.string (String.ofList body)) ('"' :: (text ++ ['"']))
  | number {numeral : Numeral} {n : Number} {text : List Char} (h : NumeralText numeral text)
      (hrange : numeral.number? = some n) : Lexeme (.number n) (numeral.sign ++ text)

/-- The texts that spell a sequence of tokens, with blanks anywhere between them. -/
inductive Spells : List Char → List Token → Prop where
  | nil : Spells [] []
  | blank {c : Char} {chars : List Char} {ts : List Token} (hblank : isBlank c = true)
      (h : Spells chars ts) : Spells (c :: chars) ts
  | token {t : Token} {lexeme chars : List Char} {ts : List Token} (hlexeme : Lexeme t lexeme)
      (h : Spells chars ts) : Spells (lexeme ++ chars) (t :: ts)

mutual
/-- The sequences of tokens that make up a value. -/
inductive ValueTokens : Json → List Token → Prop where
  | null : ValueTokens .null [.null]
  | bool (b : Bool) : ValueTokens (.bool b) [.bool b]
  | number (n : Number) : ValueTokens (.number n) [.number n]
  | string (text : String) : ValueTokens (.string text) [.string text]
  | emptyArray : ValueTokens (.array []) [.leftBracket, .rightBracket]
  | array {items : List Json} {ts : List Token} (h : ItemsTokens items ts) :
      ValueTokens (.array items) (.leftBracket :: (ts ++ [.rightBracket]))
  | emptyObject : ValueTokens (.object []) [.leftBrace, .rightBrace]
  | object {members : List (String × Json)} {ts : List Token} (h : MembersTokens members ts) :
      ValueTokens (.object members) (.leftBrace :: (ts ++ [.rightBrace]))

/-- The sequences of tokens that make up one or more items, with a comma between any two. -/
inductive ItemsTokens : List Json → List Token → Prop where
  | last {item : Json} {ts : List Token} (h : ValueTokens item ts) : ItemsTokens [item] ts
  | more {item : Json} {items : List Json} {ts us : List Token} (hitem : ValueTokens item ts)
      (hitems : ItemsTokens items us) : ItemsTokens (item :: items) (ts ++ .comma :: us)

/-- The sequences of tokens that make up one or more members, with a comma between any two. -/
inductive MembersTokens : List (String × Json) → List Token → Prop where
  | last {name : String} {value : Json} {ts : List Token} (h : ValueTokens value ts) :
      MembersTokens [(name, value)] (.string name :: .colon :: ts)
  | more {name : String} {value : Json} {members : List (String × Json)} {ts us : List Token}
      (hvalue : ValueTokens value ts) (hmembers : MembersTokens members us) :
      MembersTokens ((name, value) :: members) (.string name :: .colon :: (ts ++ .comma :: us))
end

/-- Whether a text is a document that holds a value: it spells tokens that make up the value, and no
more arrays and objects stand inside one another than a reader accepts. -/
structure IsDocument (text : String) (value : Json) : Prop where
  grammar : ∃ ts, Spells text.toList ts ∧ ValueTokens value ts
  depth : value.depth ≤ depthLimit

/-! ## Texts of tokens -/

/-- A token by itself. -/
theorem Lexeme.spells {t : Token} {lexeme : List Char} (h : Lexeme t lexeme) :
    Spells lexeme [t] := by
  simpa using Spells.token h .nil

/-- Texts that are written one after another spell their tokens one after another. -/
theorem Spells.append {first second : List Char} {ts us : List Token} (hfirst : Spells first ts)
    (hsecond : Spells second us) : Spells (first ++ second) (ts ++ us) := by
  induction hfirst with
  | nil => exact hsecond
  | blank hblank _ ih => exact .blank hblank ih
  | token hlexeme _ ih =>
      rw [List.append_assoc, List.cons_append]
      exact .token hlexeme ih

/-- Blanks in front of a text spell nothing. -/
theorem Spells.blanks {blanks chars : List Char} {ts : List Token}
    (hblanks : ∀ c ∈ blanks, isBlank c = true) (h : Spells chars ts) :
    Spells (blanks ++ chars) ts := by
  induction blanks with
  | nil => exact h
  | cons c rest ih =>
      rw [List.forall_mem_cons] at hblanks
      exact .blank hblanks.1 (ih hblanks.2)

/-! ## The tokens of a value -/

/-- Items that follow another one are items with a comma in front. -/
theorem moreItemTokens_of_ne_nil {items : List Json} (h : items ≠ []) :
    moreItemTokens items = .comma :: itemTokens items := by
  cases items with
  | nil => exact absurd rfl h
  | cons item items => rw [moreItemTokens, itemTokens]

/-- Members that follow another one are members with a comma in front. -/
theorem moreMemberTokens_of_ne_nil {members : List (String × Json)} (h : members ≠ []) :
    moreMemberTokens members = .comma :: memberTokens members := by
  cases members with
  | nil => exact absurd rfl h
  | cons member members => rw [moreMemberTokens, memberTokens]

/-- Only items that are there are made up by tokens. -/
theorem ItemsTokens.ne_nil {items : List Json} {ts : List Token} (h : ItemsTokens items ts) :
    items ≠ [] := by
  cases h <;> simp

/-- Only members that are there are made up by tokens. -/
theorem MembersTokens.ne_nil {members : List (String × Json)} {ts : List Token}
    (h : MembersTokens members ts) : members ≠ [] := by
  cases h <;> simp

mutual
/-- The listed tokens of a value are the only ones that make it up. -/
theorem ValueTokens.eq_tokens {value : Json} {ts : List Token} (h : ValueTokens value ts) :
    ts = tokens value := by
  cases h with
  | null | bool _ | number _ | string _ | emptyArray | emptyObject => rfl
  | array h => rw [tokens, h.eq_itemTokens]
  | object h => rw [tokens, h.eq_memberTokens]

/-- The listed tokens of items are the only ones that make them up. -/
theorem ItemsTokens.eq_itemTokens {items : List Json} {ts : List Token}
    (h : ItemsTokens items ts) : ts = itemTokens items := by
  cases h with
  | last h => rw [itemTokens, moreItemTokens, List.append_nil, h.eq_tokens]
  | more hitem hitems =>
      rw [itemTokens, moreItemTokens_of_ne_nil hitems.ne_nil, hitem.eq_tokens,
        hitems.eq_itemTokens]

/-- The listed tokens of members are the only ones that make them up. -/
theorem MembersTokens.eq_memberTokens {members : List (String × Json)} {ts : List Token}
    (h : MembersTokens members ts) : ts = memberTokens members := by
  cases h with
  | last h => rw [memberTokens, moreMemberTokens, List.append_nil, h.eq_tokens]
  | more hvalue hmembers =>
      rw [memberTokens, moreMemberTokens_of_ne_nil hmembers.ne_nil, hvalue.eq_tokens,
        hmembers.eq_memberTokens]
end

mutual
/-- The listed tokens of a value make it up. -/
theorem valueTokens_tokens (value : Json) : ValueTokens value (tokens value) := by
  cases value with
  | null => exact .null
  | bool b => exact .bool b
  | number n => exact .number n
  | string text => exact .string text
  | array items =>
      by_cases hitems : items = []
      · subst hitems
        exact .emptyArray
      · exact .array (itemsTokens_itemTokens items hitems)
  | object members =>
      by_cases hmembers : members = []
      · subst hmembers
        exact .emptyObject
      · exact .object (membersTokens_memberTokens members hmembers)

/-- The listed tokens of items make them up. -/
theorem itemsTokens_itemTokens (items : List Json) (h : items ≠ []) :
    ItemsTokens items (itemTokens items) := by
  cases items with
  | nil => exact absurd rfl h
  | cons item items =>
      rw [itemTokens]
      by_cases hitems : items = []
      · subst hitems
        rw [moreItemTokens, List.append_nil]
        exact .last (valueTokens_tokens item)
      · rw [moreItemTokens_of_ne_nil hitems]
        exact .more (valueTokens_tokens item) (itemsTokens_itemTokens items hitems)

/-- The listed tokens of members make them up. -/
theorem membersTokens_memberTokens (members : List (String × Json)) (h : members ≠ []) :
    MembersTokens members (memberTokens members) := by
  cases members with
  | nil => exact absurd rfl h
  | cons member members =>
      obtain ⟨name, value⟩ := member
      rw [memberTokens]
      by_cases hmembers : members = []
      · subst hmembers
        rw [moreMemberTokens, List.append_nil]
        exact .last (valueTokens_tokens value)
      · rw [moreMemberTokens_of_ne_nil hmembers]
        exact .more (valueTokens_tokens value) (membersTokens_memberTokens members hmembers)
end

/-- A document spells the listed tokens of its value. -/
theorem isDocument_iff {text : String} {value : Json} :
    IsDocument text value ↔ Spells text.toList (tokens value) ∧ value.depth ≤ depthLimit := by
  constructor
  · rintro ⟨⟨ts, hspells, hts⟩, hdepth⟩
    obtain rfl := hts.eq_tokens
    exact ⟨hspells, hdepth⟩
  · rintro ⟨hspells, hdepth⟩
    exact ⟨⟨tokens value, hspells, valueTokens_tokens value⟩, hdepth⟩

end StyleProps.Json
