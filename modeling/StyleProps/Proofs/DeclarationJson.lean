import StyleProps.Proofs.Merge
import StyleProps.Proofs.JsonPrinting
import StyleProps.Declaration.Json

/-!
# Declaration objects as JSON

A well-formed declaration object is read back from every document of its JSON object
(`parse?_of_isDocument`), and so from both forms in which it is written. Conversely, the texts that
are read as declaration objects are the documents of JSON objects in which no null and no boolean
occurs (`exists_parse?_iff`), and what is read is the one object that the document denotes
(`parse?_eq_some_iff_denotes`): a name that is repeated keeps its first position and its last value.
-/

namespace StyleProps

/-! ## Plain documents and what they denote -/

namespace Json

/-- Whether no null and no boolean occurs in a value, at any depth. -/
inductive Plain : Json → Prop where
  | number (n : Number) : Plain (.number n)
  | string (text : String) : Plain (.string text)
  | array {items : List Json} (h : ∀ item ∈ items, Plain item) : Plain (.array items)
  | object {members : List (String × Json)} (h : ∀ member ∈ members, Plain member.2) :
      Plain (.object members)

/-- The value that a JSON value stands for. The keys of an object are the names of its members, each
where it first occurs, and the value under a key is that of the last member with this name. -/
inductive Denotes : Json → Value → Prop where
  | number (n : Number) : Denotes (.number n) (.number n.toFloat)
  | string (text : String) : Denotes (.string text) (.text text)
  | array {items : List Json} {values : List Value} (hlength : values.length = items.length)
      (hvalues : ∀ (i : Nat) (item : Json) (value : Value), items[i]? = some item →
        values[i]? = some value → Denotes item value) : Denotes (.array items) (.list values)
  | object {members : List (String × Json)} {entries : Declarations}
      (hkeys : entries.keys = (Assoc.keys members).eraseDups)
      (hvalues : ∀ (key : String) (member : Json) (value : Value),
        Assoc.get? key members.reverse = some member → entries.get? key = some value →
          Denotes member value) : Denotes (.object members) (.nested entries)

end Json

namespace Value

/-! ## Reading items and members -/

/-- Items are read one by one. -/
theorem itemsOfJson?_eq_some_iff {items : List Json} {values : List Value} :
    itemsOfJson? items = some values ↔ values.map some = items.map ofJson? := by
  induction items generalizing values with
  | nil => cases values <;> simp [itemsOfJson?]
  | cons item items ih =>
      rw [itemsOfJson?, List.map_cons]
      cases values with
      | nil => cases ofJson? item <;> cases itemsOfJson? items <;> simp
      | cons value values =>
          rw [List.map_cons, List.cons.injEq, ← ih]
          cases ofJson? item <;> cases itemsOfJson? items <;> simp [eq_comm]

/-- Items are read if each of them is. -/
theorem isSome_itemsOfJson? {items : List Json} :
    (itemsOfJson? items).isSome = true ↔ ∀ item ∈ items, (ofJson? item).isSome = true := by
  induction items with
  | nil => simp [itemsOfJson?]
  | cons item items ih =>
      rw [List.forall_mem_cons, ← ih, itemsOfJson?]
      cases ofJson? item <;> cases itemsOfJson? items <;> simp

/-- Members are read one by one, and their values are stored from left to right. -/
theorem exists_pairs_of_entriesOfJson? {members : List (String × Json)}
    {stored entries : Declarations} (h : entriesOfJson? stored members = some entries) :
    ∃ pairs, Assoc.insertAll pairs stored = entries ∧
      (pairs.map fun pair => (pair.1, some pair.2)) =
        members.map fun member => (member.1, ofJson? member.2) := by
  induction members generalizing stored with
  | nil => exact ⟨[], Option.some.inj h, rfl⟩
  | cons member members ih =>
      obtain ⟨name, json⟩ := member
      rw [entriesOfJson?] at h
      split at h
      · next value hvalue =>
          obtain ⟨pairs, hpairs, hmap⟩ := ih h
          exact ⟨(name, value) :: pairs, hpairs, by simp [hvalue, hmap]⟩
      · cases h

/-- Members are read if each of them is. -/
theorem isSome_entriesOfJson? {members : List (String × Json)} {stored : Declarations} :
    (entriesOfJson? stored members).isSome = true ↔
      ∀ member ∈ members, (ofJson? member.2).isSome = true := by
  induction members generalizing stored with
  | nil => simp [entriesOfJson?]
  | cons member members ih =>
      obtain ⟨name, json⟩ := member
      rw [List.forall_mem_cons, entriesOfJson?]
      cases hvalue : ofJson? json with
      | none => simp
      | some value => simpa using ih

/-- The keys that are read are the names, each where it first occurs. -/
theorem keys_of_entriesOfJson? {members : List (String × Json)} {entries : Declarations}
    (h : entriesOfJson? [] members = some entries) :
    entries.keys = (Assoc.keys members).eraseDups := by
  obtain ⟨pairs, rfl, hmap⟩ := exists_pairs_of_entriesOfJson? h
  have hnames : Assoc.keys pairs = Assoc.keys members := by
    simpa [Assoc.keys, Function.comp_def] using congrArg (List.map Prod.fst) hmap
  show Assoc.keys (Assoc.insertAll pairs []) = _
  rw [Assoc.keys_insertAll, hnames]
  simp [List.removeAll]

/-- The value that is read under a name is that of the last member with this name. -/
theorem get?_of_entriesOfJson? {members : List (String × Json)} {entries : Declarations}
    (h : entriesOfJson? [] members = some entries) (key : String) :
    (entries.get? key).map some = (Assoc.get? key members.reverse).map ofJson? := by
  obtain ⟨pairs, rfl, hmap⟩ := exists_pairs_of_entriesOfJson? h
  show (Assoc.get? key (Assoc.insertAll pairs [])).map some = _
  rw [Assoc.get?_insertAll, Assoc.get?_nil, Option.or_none, ← Assoc.get?_map, ← Assoc.get?_map,
    List.map_reverse, hmap, List.map_reverse]

/-! ## What is accepted, and what it means -/

/-- A value is read exactly if no null and no boolean occurs in it. -/
theorem isSome_ofJson?_iff {json : Json} : (ofJson? json).isSome = true ↔ json.Plain := by
  induction json using Json.tree_induction with
  | null => exact ⟨nofun, nofun⟩
  | bool b => exact ⟨nofun, nofun⟩
  | number n => exact ⟨fun _ => .number n, fun _ => rfl⟩
  | string content => exact ⟨fun _ => .string content, fun _ => rfl⟩
  | array items ih =>
      rw [ofJson?, Option.isSome_map, isSome_itemsOfJson?]
      refine ⟨fun h => .array fun item hitem => (ih item hitem).mp (h item hitem), fun h => ?_⟩
      cases h with
      | array h => exact fun item hitem => (ih item hitem).mpr (h item hitem)
  | object members ih =>
      rw [ofJson?, Option.isSome_map, isSome_entriesOfJson?]
      refine ⟨fun h => .object fun member hmember => (ih member hmember).mp (h member hmember),
        fun h => ?_⟩
      cases h with
      | object h => exact fun member hmember => (ih member hmember).mpr (h member hmember)

/-- What is read is what the value denotes. -/
theorem denotes_of_ofJson? {json : Json} {value : Value} (h : ofJson? json = some value) :
    json.Denotes value := by
  induction json using Json.tree_induction generalizing value with
  | null => cases h
  | bool b => cases h
  | number n =>
      obtain rfl := Option.some.inj h
      exact .number n
  | string content =>
      obtain rfl := Option.some.inj h
      exact .string content
  | array items ih =>
      obtain ⟨values, hitems, rfl⟩ := Option.map_eq_some_iff.mp h
      rw [itemsOfJson?_eq_some_iff] at hitems
      refine .array (by simpa using congrArg List.length hitems) fun i item value hi hv => ?_
      have hat : (values.map some)[i]? = (items.map ofJson?)[i]? := by rw [hitems]
      rw [List.getElem?_map, List.getElem?_map, hi, hv] at hat
      exact ih item (List.mem_of_getElem? hi) (Option.some.inj hat).symm
  | object members ih =>
      obtain ⟨entries, hentries, rfl⟩ := Option.map_eq_some_iff.mp h
      refine .object (keys_of_entriesOfJson? hentries) fun key member value hmember hvalue => ?_
      have hat := get?_of_entriesOfJson? hentries key
      rw [hmember, hvalue] at hat
      have hmem := List.mem_reverse.mp (Assoc.mem_of_get? hmember)
      exact ih (key, member) hmem (Option.some.inj hat).symm

/-- Names that are taken once each are distinct. -/
theorem nodup_eraseDups : ∀ names : List String, names.eraseDups.Nodup
  | [] => List.nodup_nil
  | name :: names => by
      rw [List.eraseDups_cons, List.nodup_cons, List.mem_eraseDups]
      exact ⟨by simp, nodup_eraseDups _⟩
termination_by names => names.length
decreasing_by exact Nat.lt_succ_of_le (List.length_filter_le _ _)

/-- With the names as its keys, an object lacks a key exactly if no member has this name. -/
theorem get?_eq_none_iff_of_keys {members : List (String × Json)} {entries : Declarations}
    (hkeys : entries.keys = (Assoc.keys members).eraseDups) (key : String) :
    entries.get? key = none ↔ Assoc.get? key members.reverse = none := by
  have hmem : key ∈ Assoc.keys entries ↔ key ∈ Assoc.keys members := by
    show key ∈ entries.keys ↔ _
    rw [hkeys, List.mem_eraseDups]
  show Assoc.get? key entries = none ↔ _
  rw [Assoc.get?_eq_none_iff, Assoc.get?_eq_none_iff, hmem]
  simp [Assoc.keys]

/-- A value denotes one value at most. -/
theorem denotes_unique {json : Json} {value other : Value} (h : json.Denotes value)
    (hother : json.Denotes other) : value = other := by
  induction json using Json.tree_induction generalizing value other with
  | null => cases h
  | bool b => cases h
  | number n => cases h; cases hother; rfl
  | string content => cases h; cases hother; rfl
  | array items ih =>
      cases h with | @array _ values hlength hvalues
      cases hother with | @array _ others hlength' hothers
      refine congrArg Value.list (List.ext_getElem (hlength.trans hlength'.symm) ?_)
      intro i hi hi'
      have hitem : i < items.length := hlength ▸ hi
      exact ih items[i] (List.getElem_mem hitem)
        (hvalues i _ _ (List.getElem?_eq_getElem hitem) (List.getElem?_eq_getElem hi))
        (hothers i _ _ (List.getElem?_eq_getElem hitem) (List.getElem?_eq_getElem hi'))
  | object members ih =>
      cases h with | @object _ entries hkeys hvalues
      cases hother with | @object _ others hkeys' hothers
      -- Both objects have the names of the members as keys, so they could differ in values only.
      have hnodup : entries.keys.Nodup := hkeys ▸ nodup_eraseDups (Assoc.keys members)
      refine congrArg Value.nested
        (Assoc.ext_of_get? (hkeys.trans hkeys'.symm) hnodup fun key => ?_)
      show entries.get? key = others.get? key
      have hnone := get?_eq_none_iff_of_keys hkeys key
      have hnone' := get?_eq_none_iff_of_keys hkeys' key
      cases hlast : Assoc.get? key members.reverse with
      | none => rw [hnone.mpr hlast, hnone'.mpr hlast]
      | some member =>
          have hne : Assoc.get? key members.reverse ≠ none := by simp [hlast]
          obtain ⟨value, hvalue⟩ := Option.ne_none_iff_exists'.mp (mt hnone.mp hne)
          obtain ⟨other, hvalue'⟩ := Option.ne_none_iff_exists'.mp (mt hnone'.mp hne)
          have hmem := List.mem_reverse.mp (Assoc.mem_of_get? hlast)
          rw [hvalue, hvalue', ih (key, member) hmem (hvalues key member value hlast hvalue)
            (hothers key member other hlast hvalue')]

/-! ## Reading back what was written -/

mutual
/-- The numbers in a value, in order. -/
def numbers : Value → List Float
  | .text _ => []
  | .number x => [x]
  | .list items => numbersOfItems items
  | .nested entries => numbersOfEntries entries

/-- The numbers in the items of a list, in order. -/
def numbersOfItems : List Value → List Float
  | [] => []
  | item :: rest => numbers item ++ numbersOfItems rest

/-- The numbers in the values of entries, in order. -/
def numbersOfEntries : List (String × Value) → List Float
  | [] => []
  | (_, value) :: rest => numbers value ++ numbersOfEntries rest
end

/-- The number of a token that is one. -/
def tokenNumber? : Json.Token → Option Json.Number
  | .number n => some n
  | _ => none

/-- The number of a value that is one. -/
def asNumber? : Value → Option Float
  | .number x => some x
  | _ => none

/-- Whether the text that is written for a number is read as the same number. -/
def ReadsBack (x : Float) : Prop :=
  parse? (Value.number x).toJson.compact = some (.number x)

/-- Whether a number reads back can be told by reading it. -/
instance (x : Float) : Decidable (ReadsBack x) :=
  decidable_of_iff ((parse? (Value.number x).toJson.compact).bind asNumber? = some x) <| by
    unfold ReadsBack
    cases parse? (Value.number x).toJson.compact with
    | none => simp
    | some value => cases value <;> simp [asNumber?]

/-- A number that reads back as a value reads back as a JSON number, and not as an integer. -/
theorem ReadsBack.rereads {x : Float} (h : ReadsBack x) : (Json.Number.float x).Rereads := by
  have htext : (Value.number x).toJson.compact = String.ofList (Json.Number.float x).chars := by
    simp [toJson, Json.compact, Json.tokens, Json.Token.chars]
  unfold ReadsBack parse? at h
  rw [htext] at h
  obtain ⟨json, hjson, hvalue⟩ := Option.bind_eq_some_iff.mp h
  cases json with
  | number n =>
      cases n with
      | integer k => exact absurd rfl (Json.ne_integer_of_parse? hjson k)
      | float y =>
          obtain rfl : y = x := by simpa [ofJson?, Json.Number.toFloat] using hvalue
          exact hjson
  | null | bool _ | string _ => cases hvalue
  | array items =>
      obtain ⟨values, _, hlist⟩ := Option.map_eq_some_iff.mp hvalue
      cases hlist
  | object members =>
      obtain ⟨entries, _, hnested⟩ := Option.map_eq_some_iff.mp hvalue
      cases hnested

mutual
/-- The numbers among the tokens of a value are the floating-point numbers in it. -/
theorem numbers_tokens (value : Value) :
    value.toJson.tokens.filterMap tokenNumber? = value.numbers.map .float := by
  cases value with
  | text content => rfl
  | number x => rfl
  | list items =>
      cases items with
      | nil => rfl
      | cons item items =>
          simp [toJson, itemsToJson, Json.tokens, Json.itemTokens, List.filterMap_cons,
            tokenNumber?, numbers, numbersOfItems, numbers_tokens item,
            numbers_moreItemTokens items]
  | nested entries =>
      cases entries with
      | nil => rfl
      | cons entry entries =>
          simp [toJson, entriesToJson, Json.tokens, Json.memberTokens, List.filterMap_cons,
            tokenNumber?, numbers, numbersOfEntries, numbers_tokens entry.2,
            numbers_moreMemberTokens entries]

/-- The numbers among the tokens of further items are the floating-point numbers in them. -/
theorem numbers_moreItemTokens (items : List Value) :
    (Json.moreItemTokens (itemsToJson items)).filterMap tokenNumber? =
      (numbersOfItems items).map .float := by
  cases items with
  | nil => rfl
  | cons item items =>
      simp [itemsToJson, Json.moreItemTokens, List.filterMap_cons, tokenNumber?,
        numbersOfItems, numbers_tokens item, numbers_moreItemTokens items]

/-- The numbers among the tokens of further members are the floating-point numbers in them. -/
theorem numbers_moreMemberTokens (entries : List (String × Value)) :
    (Json.moreMemberTokens (entriesToJson entries)).filterMap tokenNumber? =
      (numbersOfEntries entries).map .float := by
  cases entries with
  | nil => rfl
  | cons entry entries =>
      simp [entriesToJson, Json.moreMemberTokens, List.filterMap_cons, tokenNumber?,
        numbersOfEntries, numbers_tokens entry.2, numbers_moreMemberTokens entries]
end

/-- If the numbers in a value read back, then so do those among its tokens. -/
theorem rereads_of_mem_tokens {value : Value} (h : ∀ x ∈ value.numbers, ReadsBack x) :
    ∀ n, .number n ∈ value.toJson.tokens → n.Rereads := by
  intro n hn
  have hmem : n ∈ value.toJson.tokens.filterMap tokenNumber? :=
    List.mem_filterMap.mpr ⟨.number n, hn, rfl⟩
  rw [numbers_tokens] at hmem
  obtain ⟨x, hx, rfl⟩ := List.mem_map.mp hmem
  exact (h x hx).rereads

mutual
/-- The JSON value of a well-formed value is read as the value. -/
theorem ofJson?_toJson (value : Value) (h : value.WellFormed) :
    ofJson? value.toJson = some value := by
  cases value with
  | text content => rfl
  | number x => rfl
  | list items =>
      rw [toJson, ofJson?, itemsOfJson?_itemsToJson items h]
      rfl
  | nested entries =>
      have hnodup : (Assoc.keys ([] ++ entries)).Nodup := h.1
      rw [toJson, ofJson?, entriesOfJson?_entriesToJson [] entries h.2,
        Assoc.insertAll_of_nodup hnodup]
      rfl

/-- The JSON values of well-formed items are read as the items. -/
theorem itemsOfJson?_itemsToJson (items : List Value) (h : WellFormedItems items) :
    itemsOfJson? (itemsToJson items) = some items := by
  cases items with
  | nil => rfl
  | cons item items =>
      rw [itemsToJson, itemsOfJson?, ofJson?_toJson item h.1, itemsOfJson?_itemsToJson items h.2]

/-- The members for well-formed entries are read and stored as the entries. -/
theorem entriesOfJson?_entriesToJson (stored : Declarations) (entries : List (String × Value))
    (h : WellFormedEntries entries) :
    entriesOfJson? stored (entriesToJson entries) = some (Assoc.insertAll entries stored) := by
  cases entries with
  | nil => rfl
  | cons entry entries =>
      obtain ⟨key, value⟩ := entry
      rw [entriesToJson, entriesOfJson?, ofJson?_toJson value h.1]
      exact entriesOfJson?_entriesToJson _ entries h.2
end

end Value

namespace Declarations

open Json (IsDocument)

/-- The numbers in an object, in order. -/
def numbers (d : Declarations) : List Float :=
  (Value.nested d).numbers

/-- Only documents of objects are read, and what they hold is stored member by member. -/
theorem parse?_eq_some_iff {text : String} {d : Declarations} :
    parse? text = some d ↔
      ∃ members, IsDocument text (.object members) ∧
        Value.ofJson? (.object members) = some (.nested d) := by
  unfold parse?
  rw [Option.bind_eq_some_iff]
  constructor
  · rintro ⟨json, hjson, hread⟩
    cases json with
    | object members =>
        refine ⟨members, Json.parse?_eq_some_iff.mp hjson, ?_⟩
        rw [Value.ofJson?, Option.map_eq_some_iff]
        exact ⟨d, hread, rfl⟩
    | _ => cases hread
  · rintro ⟨members, hdocument, hread⟩
    refine ⟨.object members, Json.parse?_eq_some_iff.mpr hdocument, ?_⟩
    obtain ⟨entries, hentries, heq⟩ := Option.map_eq_some_iff.mp hread
    obtain rfl := Value.nested.inj heq
    exact hentries

/-- A well-formed object is read from every document of its JSON object. -/
theorem parse?_of_isDocument {text : String} {d : Declarations} (hwf : d.WellFormed)
    (hdocument : IsDocument text d.toJson) : parse? text = some d :=
  parse?_eq_some_iff.mpr ⟨_, hdocument, Value.ofJson?_toJson (.nested d) hwf⟩

/-- The texts that are read are the documents of objects without null and booleans. -/
theorem exists_parse?_iff {text : String} :
    (∃ d, parse? text = some d) ↔
      ∃ members, IsDocument text (.object members) ∧ (Json.object members).Plain := by
  constructor
  · rintro ⟨d, hd⟩
    obtain ⟨members, hdocument, hread⟩ := parse?_eq_some_iff.mp hd
    exact ⟨members, hdocument, Value.isSome_ofJson?_iff.mp (by simp [hread])⟩
  · rintro ⟨members, hdocument, hplain⟩
    obtain ⟨value, hread⟩ := Option.isSome_iff_exists.mp (Value.isSome_ofJson?_iff.mpr hplain)
    obtain ⟨d, _, rfl⟩ := Option.map_eq_some_iff.mp hread
    exact ⟨d, parse?_eq_some_iff.mpr ⟨members, hdocument, hread⟩⟩

/-- What is read from a text is the object that its document denotes. -/
theorem parse?_eq_some_iff_denotes {text : String} {d : Declarations} :
    parse? text = some d ↔
      ∃ members, IsDocument text (.object members) ∧ (Json.object members).Plain ∧
        (Json.object members).Denotes (.nested d) := by
  rw [parse?_eq_some_iff]
  constructor
  · rintro ⟨members, hdocument, hread⟩
    exact ⟨members, hdocument, Value.isSome_ofJson?_iff.mp (by simp [hread]),
      Value.denotes_of_ofJson? hread⟩
  · rintro ⟨members, hdocument, hplain, hdenotes⟩
    obtain ⟨value, hread⟩ := Option.isSome_iff_exists.mp (Value.isSome_ofJson?_iff.mpr hplain)
    obtain rfl := Value.denotes_unique (Value.denotes_of_ofJson? hread) hdenotes
    exact ⟨members, hdocument, hread⟩

/-- A repeated name keeps its first position and its last value. -/
example : (parse? "\x7b\"b\": 1, \"a\": [2], \"b\": \"c\"\x7d").map
    (fun d => (d.keys, (d.get? "b").bind Value.asText?)) = some (["b", "a"], some "c") := by
  decide +kernel

/-- A well-formed object whose finite numbers read back, and which is not nested too deeply, is
unchanged after it was written in either form and read again. Conversely, the texts that are read
are the documents of objects in which no null and no boolean occurs, and what is read is the object
that the document denotes. -/
theorem reads_written_and_accepts_plain :
    (∀ d : Declarations, d.WellFormed → d.toJson.depth ≤ Json.depthLimit →
      (∀ x ∈ d.numbers, x.isFinite = true) →
      (∀ x ∈ d.numbers, x.isFinite = true → Value.ReadsBack x) →
        parse? d.compact = some d ∧ parse? d.pretty = some d) ∧
    (∀ text : String, (∃ d, parse? text = some d) ↔
      ∃ members, IsDocument text (.object members) ∧ (Json.object members).Plain) ∧
    ∀ (text : String) (d : Declarations), parse? text = some d ↔
      ∃ members, IsDocument text (.object members) ∧ (Json.object members).Plain ∧
        (Json.object members).Denotes (.nested d) := by
  refine ⟨fun d hwf hdepth hfinite hreads => ?_, fun text => exists_parse?_iff,
    fun text d => parse?_eq_some_iff_denotes⟩
  have hnumbers := Value.rereads_of_mem_tokens fun x hx => hreads x hx (hfinite x hx)
  exact ⟨parse?_of_isDocument hwf (Json.isDocument_compact hnumbers hdepth),
    parse?_of_isDocument hwf (Json.isDocument_pretty hnumbers hdepth)⟩

/-- An object with escapes in a key and a text, an empty list, an empty scope and a number. -/
theorem reads_written_and_accepts_plain_escapes :
    let d : Declarations :=
      [("\"\\", .text "\x01\n/\u00e9"), ("a", .list [.number 10.5, .list []]),
        ("&:hover", .nested [("a", .nested [])])]
    d.WellFormed ∧ d.toJson.depth ≤ Json.depthLimit ∧
      (∀ x ∈ d.numbers, x.isFinite = true ∧ Value.ReadsBack x) ∧
      parse? d.compact = some d ∧ parse? d.pretty = some d := by
  intro d
  have hwf : d.WellFormed := by
    simp [d, WellFormed, Value.WellFormed, Value.WellFormedItems, Value.WellFormedEntries]
  have hdepth : d.toJson.depth ≤ Json.depthLimit := by decide
  have hnumbers : ∀ x ∈ d.numbers, x.isFinite = true ∧ Value.ReadsBack x := by
    intro x hx
    obtain rfl : x = 10.5 := by
      simpa [d, numbers, Value.numbers, Value.numbersOfItems, Value.numbersOfEntries] using hx
    exact ⟨by decide +kernel, by decide +kernel⟩
  exact ⟨hwf, hdepth, hnumbers, reads_written_and_accepts_plain.1 d hwf hdepth
    (fun x hx => (hnumbers x hx).1) (fun x hx _ => (hnumbers x hx).2)⟩

end Declarations

end StyleProps
