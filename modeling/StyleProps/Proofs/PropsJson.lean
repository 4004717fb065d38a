import StyleProps.Proofs.SortedJson
import StyleProps.Proofs.JsonIntegers
import StyleProps.Proofs.DeclarationJson
import StyleProps.Props

/-!
# Props as JSON

Every document of an object is read as props, and each value by its shape alone
(`PropValue.Represents`). What is written for a value is the value with sorted members, and a number
is written as a floating-point number (`PropValue.toJson_ofJson`); neither is changed by reading and
writing it once more. So props that were read are read back from both forms in which they are
written, if the floating-point numbers in them are.
-/

namespace StyleProps

/-! ## Shapes of values -/

/-- The floating-point number of a token that is one. -/
def Json.Token.float? : Json.Token → Option Float
  | .number (.float x) => some x
  | _ => none

/-- The floating-point numbers in a value, in order. -/
def Json.floats (json : Json) : List Float :=
  json.tokens.filterMap Json.Token.float?

/-- What is sorted to a text is the text. -/
theorem Json.sorted_eq_string_iff {json : Json} {content : String} :
    json.sorted = .string content ↔ json = .string content := by
  cases json <;> simp [sorted]

namespace PropValue

/-- The value of a prop for a JSON value, by its shape alone. An array of two texts is a pair; every
other array and every object is kept, with sorted members. -/
inductive Represents : Json → PropValue → Prop where
  | null : Represents .null .null
  | bool (b : Bool) : Represents (.bool b) (.bool b)
  | number (n : Json.Number) : Represents (.number n) (.number n.toFloat)
  | text (content : String) : Represents (.string content) (.text content)
  | pair (param content : String) :
      Represents (.array [.string param, .string content]) (.pair param content)
  | array {items : List Json} {json : Json}
      (hshape : ∀ param content, items ≠ [.string param, .string content])
      (hsorts : (Json.array items).SortsTo json) : Represents (.array items) (.other json)
  | object {members : List (String × Json)} {json : Json}
      (hsorts : (Json.object members).SortsTo json) : Represents (.object members) (.other json)

/-- An array that is no pair is kept. -/
theorem ofJson_array {items : List Json}
    (h : ∀ param content, items ≠ [.string param, .string content]) :
    ofJson (.array items) = .other (Json.array items).sorted := by
  simp [ofJson, h]

/-- An array is a pair or not. -/
theorem pair_or_not (items : List Json) :
    (∃ param content, items = [.string param, .string content]) ∨
      ∀ param content, items ≠ [.string param, .string content] := by
  by_cases hpair : ∃ param content, items = [.string param, .string content]
  · exact .inl hpair
  · exact .inr fun param content heq => hpair ⟨param, content, heq⟩

/-- A value is read by its shape. -/
theorem represents_ofJson (json : Json) : Represents json (ofJson json) := by
  cases json with
  | null => exact .null
  | bool b => exact .bool b
  | number n => exact .number n
  | string content => exact .text content
  | object members => exact .object (Json.sortsTo_sorted _)
  | array items =>
      rcases pair_or_not items with ⟨param, content, rfl⟩ | hshape
      · exact .pair param content
      · rw [ofJson_array hshape]
        exact .array hshape (Json.sortsTo_sorted _)

/-- A value is read in no other way. -/
theorem Represents.eq_ofJson {json : Json} {value : PropValue} (h : Represents json value) :
    value = ofJson json := by
  cases h with
  | null | bool _ | number _ | text _ | pair _ _ => rfl
  | array hshape hsorts => rw [ofJson_array hshape, hsorts.eq_sorted]
  | object hsorts => exact congrArg other hsorts.eq_sorted

/-- Sorting the members of a value does not change how it is read. -/
theorem ofJson_sorted (json : Json) : ofJson json.sorted = ofJson json := by
  cases json with
  | null | bool _ | number _ | string _ => rfl
  | object members => exact congrArg other (Json.sorted_sorted (.object members))
  | array items =>
      rcases pair_or_not items with ⟨param, content, rfl⟩ | hshape
      · rfl
      · -- Items that are sorted to two texts are these texts.
        have hsorted : ∀ param content,
            items.map Json.sorted ≠ [.string param, .string content] := by
          intro param content heq
          obtain ⟨first, rest, rfl, hfirst, hrest⟩ := List.map_eq_cons_iff.mp heq
          obtain ⟨second, rest, rfl, hsecond, hnil⟩ := List.map_eq_cons_iff.mp hrest
          obtain rfl := List.map_eq_nil_iff.mp hnil
          obtain rfl := Json.sorted_eq_string_iff.mp hfirst
          obtain rfl := Json.sorted_eq_string_iff.mp hsecond
          exact hshape _ _ rfl
        have hitems : (Json.array items).sorted = .array (items.map Json.sorted) :=
          congrArg Json.array (Json.sortedItems_eq_map items)
        rw [ofJson_array hshape, hitems, ofJson_array hsorted, ← hitems, Json.sorted_sorted]

/-- A number is written as a floating-point number, and every other value with sorted members. -/
theorem toJson_ofJson (json : Json) :
    (∃ n, json = .number n ∧ (ofJson json).toJson = .number (.float n.toFloat)) ∨
      (ofJson json).toJson = json.sorted := by
  cases json with
  | number n => exact .inl ⟨n, rfl, rfl⟩
  | null | bool _ | string _ | object _ => exact .inr rfl
  | array items =>
      rcases pair_or_not items with ⟨param, content, rfl⟩ | hshape
      · exact .inr rfl
      · exact .inr (by rw [ofJson_array hshape, toJson])

/-- A value that was read is read back from what is written for it. -/
theorem ofJson_toJson_ofJson (json : Json) : ofJson (ofJson json).toJson = ofJson json := by
  rcases toJson_ofJson json with ⟨n, rfl, _⟩ | hsorted
  · rfl
  · rw [hsorted, ofJson_sorted]

/-- What is written for a value is no deeper than what was read. -/
theorem depth_toJson_ofJson_le (json : Json) : (ofJson json).toJson.depth ≤ json.depth := by
  rcases toJson_ofJson json with ⟨n, rfl, _⟩ | hsorted
  · exact Nat.le_refl _
  · rw [hsorted]
    exact json.depth_sorted_le

/-- Every integer that is written for a value was read. -/
theorem integer_mem_tokens_of_ofJson {json : Json} {k : Int}
    (h : .number (.integer k) ∈ (ofJson json).toJson.tokens) :
    .number (.integer k) ∈ json.tokens := by
  rcases toJson_ofJson json with ⟨n, _, hfloat⟩ | hsorted
  · simp [hfloat, Json.tokens] at h
  · rw [hsorted] at h
    exact Json.number_mem_tokens_of_sorted h

end PropValue

/-! ## Reading props -/

namespace Props

open Json (IsDocument)

/-- Props are read from the documents of objects. -/
theorem parse?_eq_some_iff {text : String} {props : Props} :
    parse? text = some props ↔
      ∃ members, IsDocument text (.object members) ∧ ofMembers members = props := by
  unfold parse?
  rw [Option.bind_eq_some_iff]
  constructor
  · rintro ⟨json, hjson, hread⟩
    cases json with
    | object members =>
        exact ⟨members, Json.parse?_eq_some_iff.mp hjson, Option.some.inj hread⟩
    | _ => cases hread
  · rintro ⟨members, hdocument, hread⟩
    exact ⟨.object members, Json.parse?_eq_some_iff.mpr hdocument, congrArg some hread⟩

/-- Props record the members that they are read from. -/
theorem records_ofMembers (members : List (String × Json)) :
    (ofMembers members).Records (members.map fun member => (member.1, .ofJson member.2)) :=
  .ofList _

/-- The names of props are those of the members, each where it first occurs. -/
theorem names_ofMembers (members : List (String × Json)) :
    (ofMembers members).names = (Assoc.keys members).eraseDups := by
  rw [(records_ofMembers members).names, Assoc.keys, List.map_map]
  rfl

/-- Under a name stands the last member with this name. -/
theorem get?_ofMembers (members : List (String × Json)) (name : String) :
    (ofMembers members).get? name = (Assoc.get? name members.reverse).map PropValue.ofJson := by
  rw [(records_ofMembers members).last, ← List.map_reverse, Assoc.get?_map]

/-- Every prop is read from a member. -/
theorem exists_of_mem_entries {members : List (String × Json)} {entry : String × PropValue}
    (h : entry ∈ (ofMembers members).entries) :
    ∃ member ∈ members, PropValue.ofJson member.2 = entry.2 := by
  have hfound := Assoc.get?_of_mem (ofMembers members).nodup h
  have hmem := (records_ofMembers members).mem_of_get? hfound
  obtain ⟨member, hmember, heq⟩ := List.mem_map.mp hmem
  exact ⟨member, hmember, congrArg Prod.snd heq⟩

/-! ## Reading back what was written -/

/-- The members that are written for props. -/
def members (props : Props) : List (String × Json) :=
  props.entries.map fun entry => (entry.1, entry.2.toJson)

/-- What is written for props is the object of their members. -/
theorem toJson_eq_object (props : Props) : props.toJson = .object props.members := rfl

/-- Every member that is written is what is written for a member that was read. -/
theorem exists_of_mem_members {read : List (String × Json)} {written : String × Json}
    (h : written ∈ (ofMembers read).members) :
    ∃ member ∈ read, (PropValue.ofJson member.2).toJson = written.2 := by
  obtain ⟨entry, hentry, rfl⟩ := List.mem_map.mp h
  obtain ⟨member, hmember, hvalue⟩ := exists_of_mem_entries hentry
  exact ⟨member, hmember, congrArg PropValue.toJson hvalue⟩

/-- Props that were read are read back from the members that are written for them. -/
theorem ofMembers_members (read : List (String × Json)) :
    ofMembers (ofMembers read).members = ofMembers read := by
  have hback : ∀ entry ∈ (ofMembers read).entries,
      (entry.1, PropValue.ofJson entry.2.toJson) = id entry := by
    intro entry hmem
    obtain ⟨member, _, hvalue⟩ := exists_of_mem_entries hmem
    rw [← hvalue, PropValue.ofJson_toJson_ofJson, hvalue]
    rfl
  calc ofMembers (ofMembers read).members
      = Table.ofList ((ofMembers read).entries.map fun entry =>
          (entry.1, PropValue.ofJson entry.2.toJson)) := by
        rw [ofMembers, members, List.map_map]
        rfl
    _ = Table.ofList (ofMembers read).entries := by
        rw [List.map_congr_left hback, List.map_id]
    _ = ofMembers read := Table.ofList_entries _

/-- Props are written no deeper than the object that they were read from. -/
theorem depth_toJson_le (read : List (String × Json)) :
    (ofMembers read).toJson.depth ≤ (Json.object read).depth := by
  rw [toJson_eq_object, Json.depth, Json.depth, Nat.add_le_add_iff_right,
    Json.depthMembers_le_iff]
  intro written hwritten
  obtain ⟨member, hmember, hvalue⟩ := exists_of_mem_members hwritten
  rw [← hvalue]
  exact (PropValue.depth_toJson_ofJson_le member.2).trans
    (Json.depthMembers_le_iff.mp (Nat.le_refl _) member hmember)

/-- Every integer that is written for props was read. -/
theorem integer_mem_tokens {read : List (String × Json)} {k : Int}
    (h : .number (.integer k) ∈ (ofMembers read).toJson.tokens) :
    .number (.integer k) ∈ (Json.object read).tokens := by
  rw [toJson_eq_object, Json.number_mem_tokens_object] at h
  obtain ⟨written, hwritten, hk⟩ := h
  obtain ⟨member, hmember, hvalue⟩ := exists_of_mem_members hwritten
  rw [← hvalue] at hk
  exact Json.number_mem_tokens_object.mpr
    ⟨member, hmember, PropValue.integer_mem_tokens_of_ofJson hk⟩

/-- The numbers in props that were read are read back if the floating-point ones are. -/
theorem rereads_of_mem_tokens {text : String} {read : List (String × Json)}
    (hdocument : IsDocument text (.object read))
    (hfloats : ∀ x ∈ (ofMembers read).toJson.floats, (Json.Number.float x).Rereads) :
    ∀ n, .number n ∈ (ofMembers read).toJson.tokens → n.Rereads := by
  intro n hn
  cases n with
  | float x => exact hfloats x (List.mem_filterMap.mpr ⟨_, hn, rfl⟩)
  | integer k =>
      exact Json.rereads_integer (Json.fitsWord_of_isDocument hdocument (integer_mem_tokens hn))

/-- Props that were read are read back from both forms in which they are written. -/
theorem parse?_written {text : String} {props : Props} (h : parse? text = some props)
    (hfloats : ∀ x ∈ props.toJson.floats, (Json.Number.float x).Rereads) :
    ∀ write ∈ [Json.compact, Json.pretty], parse? (write props.toJson) = some props := by
  obtain ⟨read, hdocument, rfl⟩ := parse?_eq_some_iff.mp h
  have hnumbers := rereads_of_mem_tokens hdocument hfloats
  have hdepth : (ofMembers read).toJson.depth ≤ Json.depthLimit :=
    (depth_toJson_le read).trans hdocument.depth
  intro write hwrite
  refine parse?_eq_some_iff.mpr ⟨_, ?_, ofMembers_members read⟩
  rw [← toJson_eq_object]
  simp only [List.mem_cons, List.not_mem_nil, or_false] at hwrite
  rcases hwrite with rfl | rfl
  · exact Json.isDocument_compact hnumbers hdepth
  · exact Json.isDocument_pretty hnumbers hdepth

/-- Every document of an object is read as props: each name stands where it first occurs, with the
value of its last member, which is read by its shape alone. What was read is read back from both
forms in which it is written, and written in the same way once more, if the texts of floating-point
numbers read back. -/
theorem reads_objects_and_written :
    (∀ (text : String) (members : List (String × Json)), IsDocument text (.object members) →
      ∃ props : Props, parse? text = some props ∧
        props.names = (Assoc.keys members).eraseDups ∧
        ∀ name value, Assoc.get? name members.reverse = some value →
          ∃ prop, props.get? name = some prop ∧ PropValue.Represents value prop) ∧
    ∀ (text : String) (props : Props), parse? text = some props →
      (∀ x ∈ props.toJson.floats, (Json.Number.float x).Rereads) →
        ∀ write ∈ [Json.compact, Json.pretty],
          parse? (write props.toJson) = some props ∧
            (parse? (write props.toJson)).map (fun again => write again.toJson) =
              some (write props.toJson) := by
  refine ⟨fun text members hdocument => ?reads, fun text props hprops hfloats write hwrite => ?back⟩
  case reads =>
    refine ⟨ofMembers members, parse?_eq_some_iff.mpr ⟨members, hdocument, rfl⟩,
      names_ofMembers members, fun name value hvalue => ?_⟩
    exact ⟨.ofJson value, by rw [get?_ofMembers, hvalue, Option.map_some],
      PropValue.represents_ofJson value⟩
  case back =>
    have hback := parse?_written hprops hfloats write hwrite
    exact ⟨hback, by rw [hback, Option.map_some]⟩

/-- A repeated name, a pair and an array of three texts, an object whose names are not in order, and
numbers of both kinds. -/
theorem reads_objects_and_written_shapes :
    let members : List (String × Json) :=
      [("size", .number (.integer 18446744073709551615)),
        ("open", .array [.string "param", .string "wide"]), ("size", .null),
        ("data", .object [("b", .number (.integer (-7))), ("a", .number (.float 0.5))]),
        ("items", .array [.string "x", .string "y", .string "z"]), ("n", .number (.integer 3))]
    ∃ props : Props, parse? (Json.object members).compact = some props ∧
      props.names = ["size", "open", "data", "items", "n"] ∧
      (∃ prop, props.get? "size" = some prop ∧ PropValue.Represents .null prop) ∧
      (∃ prop, props.get? "open" = some prop ∧
        PropValue.Represents (.array [.string "param", .string "wide"]) prop) ∧
      parse? props.toJson.compact = some props ∧ parse? props.toJson.pretty = some props := by
  intro members
  have hfloat {x : Float} (hx : x = 0.5 ∨ x = 3) : (Json.Number.float x).Rereads := by
    have hback : ∀ x ∈ [(0.5 : Float), 3], Value.ReadsBack x := by decide +kernel
    exact (hback x (by simpa using hx)).rereads
  have hdocument : IsDocument (Json.object members).compact (.object members) := by
    refine Json.isDocument_compact (fun n hn => ?_) (by decide)
    have hn : n = .integer 18446744073709551615 ∨ n = .integer (-7) ∨ n = .float 0.5 ∨
        n = .integer 3 := by
      simpa [members, Json.tokens, Json.memberTokens, Json.moreMemberTokens, Json.itemTokens,
        Json.moreItemTokens] using hn
    rcases hn with rfl | rfl | rfl | rfl
    · exact Json.rereads_integer ⟨by decide, by decide⟩
    · exact Json.rereads_integer ⟨by decide, by decide⟩
    · exact hfloat (.inl rfl)
    · exact Json.rereads_integer ⟨by decide, by decide⟩
  obtain ⟨hreads, hwritten⟩ := reads_objects_and_written
  obtain ⟨props, hprops, hnames, hvalues⟩ := hreads _ members hdocument
  have hfloats : props.toJson.floats = [0.5, 3] := by
    obtain rfl : ofMembers members = props := by
      obtain ⟨read, hread, rfl⟩ := parse?_eq_some_iff.mp hprops
      obtain rfl := Json.object.inj (Option.some.inj ((Json.parse?_eq_some_iff.mpr hread).symm.trans
        (Json.parse?_eq_some_iff.mpr hdocument)))
      rfl
    decide +kernel
  have hback := hwritten _ props hprops fun x hx => hfloat (by simpa [hfloats] using hx)
  exact ⟨props, hprops, hnames.trans (by decide +kernel), hvalues "size" .null rfl,
    hvalues "open" _ rfl, (hback _ (by simp)).1, (hback _ (by simp)).1⟩

end Props

end StyleProps
