import StyleProps.Yaml.Block
import StyleProps.Yaml.Plain
import StyleProps.Yaml.Quoted
import StyleProps.Yaml.Tag

/-!
# Reading YAML tokens

The tokens of a YAML text. Two things are not seen where they begin. A block collection begins where
a line is indented further than the collection around it, and ends where a line is indented less.
And a scalar, an anchor, a tag or a flow collection turns out to be a key when a colon follows it on
the same line: it is kept as a candidate until then, and the tokens that mark a key are put in front
of it.

`lex?` reads a whole text, and fails on a text that is no sequence of tokens.
-/

namespace StyleProps.Yaml

/-- A place where a key may have begun. -/
structure KeyCandidate where
  /-- The number of tokens in front of it. -/
  tokenCount : Nat
  /-- Whether nothing but a key can stand there. -/
  isRequired : Bool
  /-- Where it begins. -/
  offset : Nat
  line : Nat
  column : Nat

/-- The state of reading tokens. -/
structure Lexer where
  cursor : Cursor
  /-- The tokens so far. -/
  tokens : Array Token
  /-- The column of the block collection around the position, or a negative number. -/
  indent : Int
  /-- The columns of the block collections around that one, innermost first. -/
  outerIndents : List Int
  /-- The candidate for a key in the collection around the position. -/
  candidate : Option KeyCandidate
  /-- The candidates of the collections around it, one for each open flow collection. -/
  outerCandidates : List (Option KeyCandidate)
  /-- Whether a key may begin at the position. -/
  keyAllowed : Bool

namespace Lexer

/-- The state before the first token. -/
def start (chars : List Char) : Lexer :=
  ⟨.start chars, #[], -1, [], none, [], true⟩

/-- Whether a flow collection is open. -/
def inFlow (s : Lexer) : Bool :=
  !s.outerCandidates.isEmpty

/-- Adds a token. -/
def push (s : Lexer) (token : Token) : Lexer :=
  { s with tokens := s.tokens.push token }

/-- Adds a token in front of later ones. -/
def insertAt (s : Lexer) (count : Nat) (token : Token) : Lexer :=
  { s with tokens := s.tokens.insertIdxIfInBounds count token }

/-- Moves on. -/
def moveTo (s : Lexer) (cursor : Cursor) : Lexer :=
  { s with cursor }

/-- Sets whether a key may begin. -/
def allowKey (s : Lexer) (keyAllowed : Bool) : Lexer :=
  { s with keyAllowed }

/-- Whether a candidate cannot become a key any more: a key fits on one line and takes no more than
1024 bytes up to its colon. -/
def isStale (s : Lexer) (candidate : KeyCandidate) : Bool :=
  candidate.line < s.cursor.line || candidate.offset + 1024 < s.cursor.offset

/-- Drops a candidate that is stale; it fails if nothing but a key can stand there. -/
def refresh? (s : Lexer) : Option KeyCandidate → Option (Option KeyCandidate)
  | none => some none
  | some candidate =>
      if !s.isStale candidate then some (some candidate)
      else if candidate.isRequired then none
      else some none

/-- Drops all stale candidates. -/
def dropStale? (s : Lexer) : Option Lexer := do
  let candidate ← s.refresh? s.candidate
  let outerCandidates ← s.outerCandidates.mapM s.refresh?
  pure { s with candidate, outerCandidates }

/-- Drops the candidate of the collection around the position; it fails if nothing but a key can
stand there. -/
def dropCandidate? (s : Lexer) : Option Lexer :=
  match s.candidate with
  | some candidate => if candidate.isRequired then none else some { s with candidate := none }
  | none => some s

/-- Makes the position a candidate for a key, if one may begin there. -/
def saveCandidate? (s : Lexer) : Option Lexer :=
  if s.keyAllowed then do
    let isRequired := !s.inFlow && s.indent == s.cursor.column
    let s ← s.dropCandidate?
    pure { s with
      candidate := some
        ⟨s.tokens.size, isRequired, s.cursor.offset, s.cursor.line, s.cursor.column⟩ }
  else some s

/-- Begins a block collection at a column that is further in than the one around it, with its token
in front of the tokens from `count` on. -/
def beginBlock (s : Lexer) (column count : Nat) (token : Token) : Lexer :=
  if !s.inFlow && s.indent < column then
    { s with indent := column, outerIndents := s.indent :: s.outerIndents }.insertAt count token
  else s

/-- Ends the block collections that are further in than a column. -/
def endBlocksFrom (column : Int) (s : Lexer) : List Int → Lexer
  | [] => s
  | outer :: rest =>
      if column < s.indent then
        endBlocksFrom column ({ s with indent := outer, outerIndents := rest }.push .blockEnd) rest
      else s

/-- Ends the block collections that are further in than a column. Inside a flow collection none
ends. -/
def endBlocks (s : Lexer) (column : Int) : Lexer :=
  if s.inFlow then s else endBlocksFrom column s s.outerIndents

/-- Passes over blanks, comments and line breaks. A tab counts as a blank only where no indentation
is read, and a byte order mark only at the beginning of a line. A key may begin after a line
break. -/
def skipToToken : (fuel : Nat) → Lexer → Lexer
  | 0, s => s
  | fuel + 1, s =>
      let cursor := s.cursor
      let cursor :=
        if cursor.column == 0 && cursor.rest.head? == some '\ufeff' then cursor.skip 1 else cursor
      let tabs := s.inFlow || !s.keyAllowed
      let cursor := cursor.skipWhile fun c => c == ' ' || (tabs && c == '\t')
      let cursor := match cursor.rest with
        | '#' :: _ => cursor.skipWhile (!isBreak ·)
        | _ => cursor
      let s := s.moveTo cursor
      if cursor.rest.head?.any isBreak then
        let s := s.moveTo cursor.lineBreak.2
        skipToToken fuel (if s.inFlow then s else s.allowKey true)
      else s

/-- A token of one character that ends or separates, after which a key may begin or not. -/
def separator? (s : Lexer) (token : Token) (keyAllowed : Bool) : Option Lexer := do
  let s ← s.dropCandidate?
  pure ((s.moveTo (s.cursor.skip 1)).push token |>.allowKey keyAllowed)

/-- A directive. -/
def directive? (s : Lexer) : Option Lexer := do
  let s ← (s.endBlocks (-1)).dropCandidate?
  let (token, next) ← Tag.directive? s.cursor
  pure ((s.moveTo next).push token |>.allowKey false)

/-- The mark of the start or of the end of a document. -/
def documentMark? (s : Lexer) (token : Token) : Option Lexer := do
  let s ← (s.endBlocks (-1)).dropCandidate?
  pure ((s.moveTo (s.cursor.skip 3)).push token |>.allowKey false)

/-- The beginning of a flow collection. -/
def flowStart? (s : Lexer) (token : Token) : Option Lexer := do
  let s ← s.saveCandidate?
  let s := { s with candidate := none, outerCandidates := s.candidate :: s.outerCandidates }
  pure ((s.moveTo (s.cursor.skip 1)).push token |>.allowKey true)

/-- The end of a flow collection. -/
def flowEnd? (s : Lexer) (token : Token) : Option Lexer := do
  let s ← s.dropCandidate?
  let s := match s.outerCandidates with
    | [] => s
    | candidate :: rest => { s with candidate, outerCandidates := rest }
  pure ((s.moveTo (s.cursor.skip 1)).push token |>.allowKey false)

/-- The dash in front of an item of a block sequence. -/
def blockEntry? (s : Lexer) : Option Lexer :=
  if s.inFlow then s.separator? .blockEntry true
  else if s.keyAllowed then
    (s.beginBlock s.cursor.column s.tokens.size .blockSequenceStart).separator? .blockEntry true
  else none

/-- The question mark in front of a key. -/
def key? (s : Lexer) : Option Lexer :=
  if s.inFlow then s.separator? .key false
  else if s.keyAllowed then
    (s.beginBlock s.cursor.column s.tokens.size .blockMappingStart).separator? .key true
  else none

/-- The colon in front of a value. What it follows becomes a key if it is a candidate. -/
def value? (s : Lexer) : Option Lexer :=
  let colon (s : Lexer) : Lexer := (s.moveTo (s.cursor.skip 1)).push .value
  match s.candidate with
  | some candidate =>
      -- The key was read before the colon showed it to be one, so its marks go in front of it.
      let s := s.insertAt candidate.tokenCount .key
      let s := s.beginBlock candidate.column candidate.tokenCount .blockMappingStart
      some ((colon { s with candidate := none }).allowKey false)
  | none =>
      if s.inFlow then some ((colon s).allowKey false)
      else if s.keyAllowed then
        let s := s.beginBlock s.cursor.column s.tokens.size .blockMappingStart
        some ((colon s).allowKey true)
      else none

/-- An anchor, an alias or a tag. -/
def property? (s : Lexer) (read : Cursor → Option (Token × Cursor)) : Option Lexer := do
  let s ← s.saveCandidate?
  let (token, next) ← read s.cursor
  pure ((s.moveTo next).push token |>.allowKey false)

/-- A block scalar. -/
def blockScalar? (s : Lexer) (style : ScalarStyle) : Option Lexer := do
  let s ← s.dropCandidate?
  let (text, next) ← Block.read? (style == .folded) s.indent s.cursor
  pure ((s.moveTo next).push (.scalar style (String.ofList text)) |>.allowKey true)

/-- A quoted scalar. -/
def quotedScalar? (s : Lexer) (style : ScalarStyle) : Option Lexer := do
  let s ← s.saveCandidate?
  let (text, next) ← Quoted.read? s.cursor
  pure ((s.moveTo next).push (.scalar style (String.ofList text)) |>.allowKey false)

/-- A plain scalar. -/
def plainScalar? (s : Lexer) : Option Lexer := do
  let s ← s.saveCandidate?
  let found ← Plain.read? s.inFlow (s.indent + 1).toNat s.cursor
  let text := String.ofList found.read.reverse
  pure ((s.moveTo found.next).push (.scalar .plain text) |>.allowKey found.endsInBreak)

/-- Whether a plain scalar may begin with a character, given the characters after it. -/
def startsPlain (inFlow : Bool) (c : Char) (rest : List Char) : Bool :=
  if c == '-' then !(rest.head?.any isBlank)
  else if c == '?' || c == ':' then !inFlow && !isSeparated rest
  else !(isBlank c || isBreak c || isFlowMark c || c == '#' || c == '&' || c == '*' || c == '!' ||
    c == '|' || c == '>' || c == '\'' || c == '"' || c == '%' || c == '@' || c == '\x60')

/-- Reads the token at a position where one begins. -/
def token? (s : Lexer) (c : Char) (rest : List Char) : Option Lexer :=
  if s.cursor.column == 0 && c == '%' then s.directive?
  else if s.cursor.atDocumentStart then s.documentMark? .documentStart
  else if s.cursor.atDocumentEnd then s.documentMark? .documentEnd
  else if c == '[' then s.flowStart? .flowSequenceStart
  else if c == '\x7b' then s.flowStart? .flowMappingStart
  else if c == ']' then s.flowEnd? .flowSequenceEnd
  else if c == '\x7d' then s.flowEnd? .flowMappingEnd
  else if c == ',' then s.separator? .flowEntry true
  else if c == '-' && isSeparated rest then s.blockEntry?
  else if c == '?' && (s.inFlow || isSeparated rest) then s.key?
  else if c == ':' && (s.inFlow || isSeparated rest) then s.value?
  else if c == '*' then s.property? fun cursor =>
    (Tag.name? cursor).map fun (name, next) => (.alias name, next)
  else if c == '&' then s.property? fun cursor =>
    (Tag.name? cursor).map fun (name, next) => (.anchor name, next)
  else if c == '!' then s.property? (Tag.tag? s.inFlow)
  else if c == '|' && !s.inFlow then s.blockScalar? .literal
  else if c == '>' && !s.inFlow then s.blockScalar? .folded
  else if c == '\'' then s.quotedScalar? .singleQuoted
  else if c == '"' then s.quotedScalar? .doubleQuoted
  else if startsPlain s.inFlow c rest then s.plainScalar?
  else none

/-- The tokens at the end of a text: the ends of the block collections that are open. -/
def finish? (s : Lexer) : Option (List Token) := do
  let s ← (s.endBlocks (-1)).dropCandidate?
  pure s.tokens.toList

/-- Reads tokens on to the end of the text. -/
def run? : (fuel : Nat) → Lexer → Option (List Token)
  | 0, _ => none
  | fuel + 1, s => do
      let s := s.skipToToken (s.cursor.rest.length + 1)
      let s ← s.dropStale?
      let s := s.endBlocks s.cursor.column
      match s.cursor.rest with
      | [] => s.finish?
      | c :: rest => run? fuel (← s.token? c rest)

end Lexer

/-- The tokens of a YAML text. Every token takes at least one character. -/
def lex? (text : String) : Option (List Token) :=
  let chars := text.toList
  if chars.all isAllowed then (Lexer.start chars).run? (chars.length + 1) else none

end StyleProps.Yaml
