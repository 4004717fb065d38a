import Mathlib.Data.List.Basic
import StyleProps.Proofs.RuleText

/-!
# Writing statements of selectors

A statement of a selector is written as its selector tokens, its media alias, an equals sign if
there is either of them, and its items with semicolons between them; statements are joined by bars.
The main result, `map_parse_split_printAll_items`, says that a written list of such statements is
read back: the bars split it into its statements, and each statement into its tokens, its media
alias and its items.
-/

namespace StyleProps

/-- A statement of a selector, with the items of its value taken apart. -/
structure ScopedStatement where
  /-- The selector tokens, in order of appearance. -/
  selectors : List SelectorToken
  /-- The media alias. -/
  media : Option String
  /-- The names and values of the items. -/
  items : List (String × String)
deriving DecidableEq, Repr

namespace ScopedStatement

open Statement

/-- The text of a list of items. -/
def itemsText (items : List (String × String)) : String :=
  String.ofList (Text.join ';' (items.map fun (name, value) => (itemText name value).toList))

/-- The statement whose value is the text of the items. -/
def frame (statement : ScopedStatement) : Statement :=
  ⟨statement.selectors, statement.media, itemsText statement.items⟩

/-- The text of a statement of a selector. -/
def print (statement : ScopedStatement) : String :=
  statement.frame.printScoped

/-- The text of a list of statements of a selector. -/
def printAll (statements : List ScopedStatement) : String :=
  String.ofList (Text.join '|' (statements.map fun statement => statement.print.toList))

/-- Reads a statement of a selector and the items of its value. -/
def parse (text : String) : ScopedStatement :=
  let statement := parseScoped text
  ⟨statement.selectors, statement.media, splitItems statement.value⟩

/-- Whether a statement of a selector can be written: its tokens can, its media alias and the names
of its items are words, and the values of its items have no brackets. -/
structure Printable (statement : ScopedStatement) : Prop where
  selectors : ∀ token ∈ statement.selectors, token.Printable
  media : ∀ name ∈ statement.media, IsWordText name
  names : ∀ item ∈ statement.items, IsWordText item.1
  values : ∀ item ∈ statement.items, FreeOf ['[', ']'] item.2

/-- Statements that can be written can be told by looking at their texts. -/
instance (statement : ScopedStatement) : Decidable statement.Printable :=
  decidable_of_iff ((∀ token ∈ statement.selectors, token.Printable) ∧
      (∀ name ∈ statement.media, IsWordText name) ∧
      (∀ item ∈ statement.items, IsWordText item.1) ∧
      ∀ item ∈ statement.items, FreeOf ['[', ']'] item.2)
    ⟨fun ⟨hselectors, hmedia, hnames, hvalues⟩ => ⟨hselectors, hmedia, hnames, hvalues⟩,
      fun h => ⟨h.selectors, h.media, h.names, h.values⟩⟩

/-! ## Lists of items -/

variable {items : List (String × String)}

/-- Splitting at a separator passes over every item, if the separator is no word character and no
equals sign. -/
theorem unsplit_items (hnames : ∀ item ∈ items, IsWordText item.1)
    (hvalues : ∀ item ∈ items, FreeOf ['[', ']'] item.2) {separator : Char}
    (hword : isWord separator = false) (hequals : separator ≠ '=') :
    ∀ part ∈ items.map (fun (name, value) => (itemText name value).toList),
      Unsplit separator part := by
  intro part hpart
  obtain ⟨item, hmem, rfl⟩ := List.mem_map.mp hpart
  exact unsplit_itemText (hnames item hmem) (hvalues item hmem) hword hequals

/-- The items of a written list of items are read back. -/
theorem splitItems_itemsText (hnames : ∀ item ∈ items, IsWordText item.1)
    (hvalues : ∀ item ∈ items, FreeOf ['[', ']'] item.2) :
    splitItems (itemsText items) = items := by
  by_cases hempty : items = []
  · -- The empty text has one empty part, which is no item.
    simp [hempty, itemsText, splitItems, Text.join, splitOutside, item?, Text.cut?]
  · have hparts := unsplit_items hnames hvalues (show isWord ';' = false by decide) (by decide)
    have hsplit := splitOutside_join (by decide) (by simpa using hempty) hparts
    have hread : ∀ item ∈ items, item? (itemText item.1 item.2).toList = some item :=
      fun item hmem => item?_itemText (hnames item hmem) (hvalues item hmem)
    rw [splitItems, itemsText, String.toList_ofList, hsplit, List.filterMap_map]
    exact (List.filterMap_congr hread).trans List.filterMap_some

/-- Splitting at bars passes over a list of parts that it passes over one by one. -/
theorem unsplit_join {separator : Char} (hbracket : separator ≠ '[') (hbar : separator ≠ '|')
    {parts : List (List Char)} (h : ∀ part ∈ parts, Unsplit '|' part) :
    Unsplit '|' (Text.join separator parts) := by
  have hseparator : Unsplit '|' [separator] :=
    Unsplit.of_not_mem (by simpa using Ne.symm hbracket) (by simpa using Ne.symm hbar)
  induction parts with
  | nil => exact Unsplit.nil
  | cons part rest ih =>
      have hpart := h part List.mem_cons_self
      cases rest with
      | nil => exact hpart
      | cons next others =>
          have hrest := ih fun other hother => h other (List.mem_cons_of_mem _ hother)
          exact hpart.append (hseparator.append hrest)

/-- Joined parts start with the first part. -/
theorem exists_join_cons (separator : Char) (part : List Char) (rest : List (List Char)) :
    ∃ after, Text.join separator (part :: rest) = part ++ after := by
  cases rest with
  | nil => exact ⟨[], (List.append_nil part).symm⟩
  | cons next others => exact ⟨separator :: Text.join separator (next :: others), rfl⟩

/-- The text of items starts with no mark and is no bracket escape. -/
theorem plain_itemsText (hnames : ∀ item ∈ items, IsWordText item.1) :
    Mark.lex? (itemsText items).toList = none ∧
      unwrapped (itemsText items).toList = (itemsText items).toList := by
  rw [itemsText, String.toList_ofList]
  cases items with
  | nil => exact ⟨rfl, rfl⟩
  | cons item rest =>
      obtain ⟨name, value⟩ := item
      have hname : IsWordText name := hnames (name, value) List.mem_cons_self
      obtain ⟨after, hjoin⟩ := exists_join_cons ';' (itemText name value).toList
        (rest.map fun (name, value) => (itemText name value).toList)
      rw [List.map_cons, hjoin, toList_itemText, List.append_assoc]
      exact ⟨lex?_word_append hname _, unwrapped_word_append hname _⟩

/-! ## The round trip -/

namespace Printable

variable {statement : ScopedStatement}

/-- What stands in front of the items can be written. -/
theorem lead (h : statement.Printable) :
    (Statement.mk statement.selectors statement.media "").Printable :=
  ⟨h.selectors, h.media, fun _ hc => by cases hc⟩

/-- Splitting at bars passes over a written statement. -/
theorem unsplit_print (h : statement.Printable) : Unsplit '|' statement.print.toList := by
  have hitems := unsplit_items h.names h.values (show isWord '|' = false by decide) (by decide)
  refine unsplit_printScoped h.lead.unsplit_leadText ?_
  rw [frame, itemsText, String.toList_ofList]
  exact unsplit_join (by decide) (by decide) hitems

/-- A written statement is read back. -/
theorem parse_print (h : statement.Printable) : parse statement.print = statement := by
  obtain ⟨hlex, hvalue⟩ := plain_itemsText h.names
  have hframe : parseScoped statement.print = statement.frame :=
    parseScoped_printScoped h.lead.wellSpelled h.media hlex hvalue
  simp only [parse, hframe]
  rw [frame, splitItems_itemsText h.names h.values]

end Printable

/-- Written statements of a selector that are joined by bars are split and read back, with all their
items. -/
theorem map_parse_split_printAll_items {statements : List ScopedStatement} (hne : statements ≠ [])
    (h : ∀ statement ∈ statements, statement.Printable) :
    (split (printAll statements)).map parse = statements :=
  map_split_join hne (fun statement hmem => (h statement hmem).unsplit_print)
    fun statement hmem => (h statement hmem).parse_print

/-- Separators and marks in values and parameters, an empty value, marks without items, and an empty
statement. -/
theorem map_parse_split_printAll_items_marks :
    (split (printAll
        [⟨[.named "hover", .functional "not" "a;b=@c"], some "md",
            [("p", "a;b|c=d:e é"), ("color", ""), ("bg", "=")]⟩,
          ⟨[], none, []⟩, ⟨[], none, [("m", ";|")]⟩, ⟨[.combinator .child "li"], none, []⟩])).map
          parse =
      [⟨[.named "hover", .functional "not" "a;b=@c"], some "md",
          [("p", "a;b|c=d:e é"), ("color", ""), ("bg", "=")]⟩,
        ⟨[], none, []⟩, ⟨[], none, [("m", ";|")]⟩, ⟨[.combinator .child "li"], none, []⟩] :=
  map_parse_split_printAll_items (by decide) (by decide +kernel)

end ScopedStatement

end StyleProps
