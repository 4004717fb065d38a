import StyleProps.Alias.Basic

/-!
# Presets

What becomes of the commas of a raw value. `Text.commaParts` are the parts between them, the only
parts without commas that the value is joined of. An alias that gives its properties one text gets
the parts joined again, so that it makes no difference whether it is a preset. A preset for a
flexible box reads the parts as slots: `IsFlexBox` says which keys there should be, in which order,
and what stands under them, and `isFlexBox_iff` that this describes one object and that it is the
one that is emitted. The main result is `Alias.emit_parts`.
-/

namespace StyleProps

/-! ## Parts between commas -/

namespace Text

/-- The parts of a text between its commas. -/
def commaParts (text : String) : List String :=
  (split ',' text.toList).map String.ofList

/-- The part of a text at an index; empty if there are fewer parts. -/
def commaPart (text : String) (i : Nat) : String :=
  ((commaParts text)[i]?).getD ""

/-- The parts of a text are the only texts without commas, at least one, that it is joined of. -/
theorem commaParts_eq_iff {text : String} {parts : List String} :
    commaParts text = parts ↔
      parts ≠ [] ∧ (∀ part ∈ parts, ',' ∉ part.toList) ∧ ",".intercalate parts = text := by
  have hjoin : ∀ parts : List String, (",".intercalate parts).toList =
      join ',' (parts.map String.toList) := by
    intro parts
    rw [join_eq_intercalate, String.toList_intercalate]
    rfl
  constructor
  · rintro rfl
    refine ⟨by simpa [commaParts] using split_ne_nil ',' text.toList, fun part hpart => ?_, ?_⟩
    · obtain ⟨chars, hchars, rfl⟩ := List.mem_map.mp hpart
      rw [String.toList_ofList]
      exact not_mem_of_mem_split hchars
    · rw [← String.toList_inj, hjoin]
      simp [commaParts, Function.comp_def, join_split]
  · rintro ⟨hne, hcommas, rfl⟩
    have hfree : ∀ chars ∈ parts.map String.toList, ',' ∉ chars := by simpa using hcommas
    rw [commaParts, hjoin, split_join (by simpa using hne) hfree]
    simp [Function.comp_def]

end Text

open Text (commaParts commaPart)

namespace EmitInput

/-- Cutting a text at its commas and joining the parts loses nothing. -/
theorem joined_ofCommas (text : String) : (ofCommas text).joined = text := by
  simp [ofCommas, joined, Function.comp_def, Text.join_split]

/-- The slots of a text that is cut at its commas are its parts, unless they are empty. -/
theorem slot?_ofCommas (text : String) (i : Nat) :
    (ofCommas text).slot? i =
      if commaPart text i = "" then none else some (commaPart text i) := by
  have hparts : ofCommas text = .positional (commaParts text) := rfl
  rw [hparts, slot?, commaPart]
  cases (commaParts text)[i]? <;> simp [Option.filter_some]

end EmitInput

/-! ## Flexible boxes -/

variable {symbols : List (String × String)} {part : String} {stored : Option Value}

/-- Whether what is stored for a slot is what its part asks for: nothing for an empty part, the
literal value of a symbolic one, and any other part itself. -/
inductive Fills (symbols : List (String × String)) : String → Option Value → Prop
  | empty : Fills symbols "" none
  | symbol {part value : String} (hne : part ≠ "") (hsymbol : (part, value) ∈ symbols) :
      Fills symbols part (some (.text value))
  | itself {part : String} (hne : part ≠ "") (hsymbol : part ∉ Assoc.keys symbols) :
      Fills symbols part (some (.text part))

/-- With distinct symbols, what a part asks for is nothing or its literal value. -/
theorem fills_iff (hnodup : (Assoc.keys symbols).Nodup) :
    Fills symbols part stored ↔
      stored = if part = "" then none else some (.text (Emitter.literal symbols part)) := by
  constructor
  · intro h
    cases h with
    | empty => rfl
    | symbol hne hsymbol => simp [hne, Emitter.literal, Assoc.get?_of_mem hnodup hsymbol]
    | itself hne hsymbol => simp [hne, Emitter.literal, Assoc.get?_eq_none_iff.mpr hsymbol]
  · rintro rfl
    by_cases hne : part = ""
    · rw [if_pos hne, hne]
      exact .empty
    · rw [if_neg hne, Emitter.literal]
      cases hvalue : Assoc.get? part symbols with
      | none => exact .itself hne (Assoc.get?_eq_none_iff.mp hvalue)
      | some value => exact .symbol hne (Assoc.mem_of_get? hvalue)

/-- A part asks for one thing only. -/
theorem Fills.unique {other : Option Value} (h : Fills symbols part stored)
    (hnodup : (Assoc.keys symbols).Nodup) (hother : Fills symbols part other) : stored = other :=
  ((fills_iff hnodup).mp h).trans ((fills_iff hnodup).mp hother).symm

/-- The keys of a flexible box: the display, a fixed direction, the two alignments as far as they
are given, and a direction of its own slot that replaces no fixed one. -/
def flexKeys (fixed justified aligned slotted : Bool) : List String :=
  ["display"] ++ (if fixed then ["flexDirection"] else []) ++
    (if justified then ["justifyContent"] else []) ++ (if aligned then ["alignItems"] else []) ++
    (if slotted && !fixed then ["flexDirection"] else [])

/-- No key of a flexible box is listed twice. -/
theorem nodup_flexKeys :
    ∀ fixed justified aligned slotted, (flexKeys fixed justified aligned slotted).Nodup := by
  decide

/-- A flexible box has no keys but those of the display, the direction and the two alignments. -/
theorem mem_of_mem_flexKeys : ∀ fixed justified aligned slotted,
    ∀ key ∈ flexKeys fixed justified aligned slotted,
      key ∈ ["display", "flexDirection", "justifyContent", "alignItems"] := by
  decide

/-- What a preset for a flexible box should emit for parts: the keys in their order, and under each
of them what the parts and the fixed direction ask for. The direction of the third part goes before
the fixed one. -/
structure IsFlexBox (direction : Option String) (directionSlot : Bool) (part : Nat → String)
    (d : Declarations) : Prop where
  keys : d.keys =
    flexKeys direction.isSome (part 0 ≠ "") (part 1 ≠ "") (directionSlot && part 2 ≠ "")
  display : d.get? "display" = some (.text "flex")
  justifyContent : Fills Emitter.flexJustifyContent (part 0) (d.get? "justifyContent")
  alignItems : Fills Emitter.flexAlignItems (part 1) (d.get? "alignItems")
  slotDirection : directionSlot = true ∧ part 2 ≠ "" →
    Fills Emitter.flexDirection (part 2) (d.get? "flexDirection")
  fixedDirection : ¬ (directionSlot = true ∧ part 2 ≠ "") →
    d.get? "flexDirection" = direction.map Value.text

namespace IsFlexBox

variable {direction : Option String} {directionSlot : Bool} {part : Nat → String}
  {d other : Declarations}

/-- Under any other key there is nothing. -/
theorem get?_eq_none (h : IsFlexBox direction directionSlot part d) {key : String}
    (hkey : key ∉ ["display", "flexDirection", "justifyContent", "alignItems"]) :
    d.get? key = none := by
  refine Assoc.get?_eq_none_iff.mpr fun hmem => hkey ?_
  have hkeys : key ∈ d.keys := hmem
  rw [h.keys] at hkeys
  exact mem_of_mem_flexKeys _ _ _ _ key hkeys

/-- Only one object is what should be emitted. -/
theorem unique (h : IsFlexBox direction directionSlot part d)
    (hother : IsFlexBox direction directionSlot part other) : d = other := by
  have hnodup : d.keys.Nodup := h.keys ▸ nodup_flexKeys _ _ _ _
  refine Assoc.ext_of_get? (h.keys.trans hother.keys.symm) hnodup fun key => ?_
  show d.get? key = other.get? key
  by_cases hkey : key ∈ ["display", "flexDirection", "justifyContent", "alignItems"]
  · simp only [List.mem_cons, List.not_mem_nil, or_false] at hkey
    rcases hkey with rfl | rfl | rfl | rfl
    · rw [h.display, hother.display]
    · by_cases hslot : directionSlot = true ∧ part 2 ≠ ""
      · exact (h.slotDirection hslot).unique (by decide) (hother.slotDirection hslot)
      · rw [h.fixedDirection hslot, hother.fixedDirection hslot]
    · exact h.justifyContent.unique (by decide) hother.justifyContent
    · exact h.alignItems.unique (by decide) hother.alignItems
  · rw [h.get?_eq_none hkey, hother.get?_eq_none hkey]

end IsFlexBox

namespace Emitter

variable {direction : Option String} {directionSlot : Bool} {input : EmitInput}

/-- The texts of a flexible box as far as they are given, with their properties, in the order in
which they are stored. -/
def flexSlots (direction : Option String) (directionSlot : Bool) (input : EmitInput) :
    List (String × Option String) :=
  [("display", some "flex"), ("flexDirection", direction),
   ("justifyContent", (input.slot? 0).map (literal flexJustifyContent)),
   ("alignItems", (input.slot? 1).map (literal flexAlignItems)),
   ("flexDirection", if directionSlot then (input.slot? 2).map (literal flexDirection) else none)]

/-- The texts that are given, with their keys. -/
def given (slots : List (String × Option String)) : List (String × String) :=
  slots.filterMap fun (key, text) => text.map fun value => (key, value)

/-- A flexible box stores the texts that are given. -/
theorem flexTexts_eq_given :
    flexTexts direction directionSlot input = given (flexSlots direction directionSlot input) := by
  unfold flexTexts flexSlots given slotEntry
  cases direction <;> cases directionSlot <;> cases input.slot? 0 <;> cases input.slot? 1 <;>
    cases input.slot? 2 <;> rfl

/-- The keys of the texts that are given. -/
theorem keys_given (slots : List (String × Option String)) :
    Assoc.keys (given slots) =
      ((slots.map fun (key, text) => (key, text.isSome)).filter Prod.snd).map Prod.fst := by
  induction slots with
  | nil => rfl
  | cons slot rest ih =>
      obtain ⟨key, text⟩ := slot
      cases text with
      | none => exact ih
      | some value => exact congrArg (key :: ·) ih

/-- The last text that is given for a key. -/
theorem get?_reverse_given (key : String) (slots : List (String × Option String)) :
    Assoc.get? key (given slots).reverse =
      slots.reverse.findSome? fun (other, text) => if other = key then text else none := by
  rw [given, ← List.filterMap_reverse]
  induction slots.reverse with
  | nil => rfl
  | cons slot rest ih =>
      obtain ⟨other, text⟩ := slot
      cases text with
      | none => simpa using ih
      | some value => by_cases hkey : other = key <;> simp [Assoc.get?, hkey, ih]

/-- The direction of the third slot stays where a fixed one is. -/
theorem eraseDups_eq_flexKeys : ∀ fixed justified aligned slotted : Bool,
    (([("display", true), ("flexDirection", fixed), ("justifyContent", justified),
      ("alignItems", aligned), ("flexDirection", slotted)].filter Prod.snd).map
        Prod.fst).eraseDups = flexKeys fixed justified aligned slotted := by
  decide

/-- A flexible box is what should be emitted for the parts that its slots hold. -/
theorem isFlexBox_emit {part : Nat → String}
    (hslot : ∀ i, input.slot? i = if part i = "" then none else some (part i)) :
    IsFlexBox direction directionSlot part ((flex direction directionSlot).emit input) := by
  have hemit : (flex direction directionSlot).emit input =
      Declarations.ofTexts (given (flexSlots direction directionSlot input)) := by
    rw [emit, flexTexts_eq_given]
  rw [hemit]
  refine ⟨?keys, ?display, (fills_iff (by decide)).mpr ?justified,
    (fills_iff (by decide)).mpr ?aligned, fun hslotted => (fills_iff (by decide)).mpr ?slotted,
    fun hfixed => ?fixed⟩
  case keys =>
    have hgiven : ∀ i, (input.slot? i).isSome = decide (part i ≠ "") := by
      intro i
      rw [hslot]
      by_cases hpart : part i = "" <;> simp [hpart]
    have hslots : (flexSlots direction directionSlot input).map
        (fun (key, text) => (key, text.isSome)) =
        [("display", true), ("flexDirection", direction.isSome),
          ("justifyContent", decide (part 0 ≠ "")), ("alignItems", decide (part 1 ≠ "")),
          ("flexDirection", directionSlot && decide (part 2 ≠ ""))] := by
      cases directionSlot <;> simp [flexSlots, hgiven]
    rw [Declarations.keys_ofTexts, keys_given, hslots, eraseDups_eq_flexKeys]
  all_goals rw [Declarations.get?_ofTexts, get?_reverse_given, flexSlots, hslot, hslot, hslot]
  case display => simp
  case justified => by_cases hpart : part 0 = "" <;> simp [hpart]
  case aligned => by_cases hpart : part 1 = "" <;> simp [hpart]
  case slotted => simp [hslotted.1, hslotted.2]
  case fixed =>
    have hthird : (if directionSlot then
        (if part 2 = "" then none else some (part 2)).map (literal flexDirection) else none) =
        none := by
      cases directionSlot with
      | false => rfl
      | true =>
          have hpart : part 2 = "" := by simpa using hfixed
          simp [hpart]
    rw [hthird]
    cases direction <;> simp

/-- Flexible boxes whose slots hold the same are the same. The third slot counts only if there is a
direction slot. -/
theorem emit_flex_congr {other : EmitInput}
    (h : ∀ i < (if directionSlot then 3 else 2), other.slot? i = input.slot? i) :
    (flex direction directionSlot).emit other = (flex direction directionSlot).emit input := by
  have hfirst : other.slot? 0 = input.slot? 0 := h 0 (by split <;> decide)
  have hsecond : other.slot? 1 = input.slot? 1 := h 1 (by split <;> decide)
  have htexts : flexTexts direction directionSlot other =
      flexTexts direction directionSlot input := by
    cases directionSlot with
    | false => simp only [flexTexts, hfirst, hsecond, Bool.false_eq_true, if_false]
    | true => simp only [flexTexts, hfirst, hsecond, h 2 (by decide)]
  rw [emit, htexts, emit]

end Emitter

namespace Alias

variable {entry : Alias} {raw : String}

/-- A value that is none of the options of an alias is no symbolic one. -/
theorem substitute?_eq_none (h : ∀ options ∈ entry.options, raw ∉ options.names) :
    entry.substitute? raw = none := by
  unfold substitute?
  cases hoptions : entry.options with
  | none => rfl
  | some options => exact Assoc.get?_eq_none_iff.mpr (h options hoptions)

/-- An alias that gives its properties one text does the same with the parts of the text. -/
theorem emit_withPreset (hraw : entry.substitute? raw = none)
    (hemitter : ∀ input, entry.emitter.emit input = entry.emitter.emit (.scalar input.joined))
    (isPreset : Bool) :
    (entry.withPreset isPreset).emit raw = entry.emitter.emit (.scalar raw) := by
  have hnone : (entry.withPreset isPreset).substitute? raw = none := hraw
  rw [emit, input, hnone]
  cases isPreset with
  | false => rfl
  | true =>
      show entry.emitter.emit (.ofCommas raw) = _
      rw [hemitter, EmitInput.joined_ofCommas]

/-- A preset gives its emitter the parts of the value. -/
theorem emit_of_isPreset (hraw : entry.substitute? raw = none) (hpreset : entry.isPreset = true) :
    entry.emit raw = entry.emitter.emit (.ofCommas raw) := by
  rw [emit, input, hraw, hpreset]
  rfl

/-- A preset for a flexible box emits the one object that it should emit for the parts. -/
theorem isFlexBox_iff {direction : Option String} {directionSlot : Bool}
    (hraw : entry.substitute? raw = none) (hemitter : entry.emitter = .flex direction directionSlot)
    (hpreset : entry.isPreset = true) (d : Declarations) :
    IsFlexBox direction directionSlot (commaPart raw) d ↔ d = entry.emit raw := by
  have hemits : IsFlexBox direction directionSlot (commaPart raw) (entry.emit raw) := by
    rw [emit_of_isPreset hraw hpreset, hemitter]
    exact Emitter.isFlexBox_emit (EmitInput.slot?_ofCommas raw)
  constructor
  · exact fun h => h.unique hemits
  · rintro rfl
    exact hemits

/-- A raw value that is none of the options is cut at its commas without loss: the parts are the
only texts without commas that it is joined of. An alias that gives one text to its properties emits
the same whether or not it is a preset. A preset for a flexible box emits the one object that is
described for the parts, and what stands behind the third part, or behind the second one if there is
no direction slot, makes no difference. -/
theorem emit_parts (entry : Alias) (raw : String)
    (hraw : ∀ options ∈ entry.options, raw ∉ options.names) :
    (∀ text, (EmitInput.ofCommas text).joined = text ∧
      ∀ parts, commaParts text = parts ↔
        parts ≠ [] ∧ (∀ part ∈ parts, ',' ∉ part.toList) ∧ ",".intercalate parts = text) ∧
    ((∃ names, entry.emitter = .properties names) ∨
        (∃ property scope, entry.emitter = .quoted property scope) →
      ∀ isPreset, (entry.withPreset isPreset).emit raw = entry.emit raw) ∧
    ∀ direction directionSlot, entry.emitter = .flex direction directionSlot →
      entry.isPreset = true →
        (∀ d, IsFlexBox direction directionSlot (commaPart raw) d ↔ d = entry.emit raw) ∧
        ∀ other, (∀ options ∈ entry.options, other ∉ options.names) →
          (∀ i < (if directionSlot then 3 else 2), commaPart other i = commaPart raw i) →
            entry.emit other = entry.emit raw := by
  have hnone := substitute?_eq_none hraw
  refine ⟨fun text => ⟨EmitInput.joined_ofCommas text, fun _ => Text.commaParts_eq_iff⟩, ?whole,
    fun direction directionSlot hemitter hpreset =>
      ⟨isFlexBox_iff hnone hemitter hpreset, fun other hother hparts => ?behind⟩⟩
  case whole =>
    intro hemitter isPreset
    have hscalar : ∀ input, entry.emitter.emit input =
        entry.emitter.emit (.scalar input.joined) := by
      intro input
      rcases hemitter with ⟨names, hnames⟩ | ⟨property, scope, hquoted⟩
      · rw [hnames]
        rfl
      · rw [hquoted]
        rfl
    have hself : entry.emit raw = entry.emitter.emit (.scalar raw) :=
      emit_withPreset hnone hscalar entry.isPreset
    rw [emit_withPreset hnone hscalar isPreset, hself]
  case behind =>
    rw [emit_of_isPreset hnone hpreset, emit_of_isPreset (substitute?_eq_none hother) hpreset,
      hemitter]
    refine Emitter.emit_flex_congr fun i hi => ?_
    rw [EmitInput.slot?_ofCommas, EmitInput.slot?_ofCommas, hparts i hi]

/-- A box with a fixed direction that its third part replaces, an empty second part, and a fourth
part that makes no difference; and a quoted alias with commas in its value. -/
theorem emit_parts_colReverse :
    let box := (flexPreset "box" (some "row") true).withOptions [("off", "none")]
    let quote := quoted "content" "content" (some "&::before")
    (∀ options ∈ box.options, "around,,colReverse,end" ∉ options.names) ∧
    box.emit "around,,colReverse,end" = [("display", .text "flex"),
      ("flexDirection", .text "column-reverse"), ("justifyContent", .text "space-around")] ∧
    box.emit "around,,colReverse" = box.emit "around,,colReverse,end" ∧
    (quote.withPreset true).emit "a,,b" = quote.emit "a,,b" := by
  intro box quote
  have hbox : ∀ options ∈ box.options, options.names = ["off"] := by
    intro options hoptions
    obtain rfl := Option.some.inj hoptions
    rfl
  have hraw : ∀ raw, raw ∉ ["off"] → ∀ options ∈ box.options, raw ∉ options.names :=
    fun raw hoff options hoptions => (hbox options hoptions).symm ▸ hoff
  obtain ⟨hparts, _, hflex⟩ := emit_parts box _ (hraw "around,,colReverse,end" (by decide))
  obtain ⟨hemits, hbehind⟩ := hflex (some "row") true rfl rfl
  obtain ⟨_, hwhole, _⟩ := emit_parts quote "a,,b" fun _ hoptions => nomatch hoptions
  have hcut : ∀ i, commaPart "around,,colReverse,end" i =
      (["around", "", "colReverse", "end"][i]?).getD "" := by
    intro i
    rw [commaPart, ((hparts _).2 ["around", "", "colReverse", "end"]).mpr (by decide)]
  have hshort : ∀ i, commaPart "around,,colReverse" i =
      (["around", "", "colReverse"][i]?).getD "" := by
    intro i
    rw [commaPart, ((hparts _).2 ["around", "", "colReverse"]).mpr (by decide)]
  refine ⟨hraw _ (by decide), ((hemits _).mp ?box).symm,
    hbehind _ (hraw _ (by decide)) fun i hi => ?part, hwhole (.inr ⟨_, _, rfl⟩) true⟩
  case box =>
    refine ⟨by rw [hcut, hcut, hcut]; decide, rfl, ?_, ?_, ?_, ?_⟩
    · rw [hcut]
      exact .symbol (by decide) (by decide)
    · rw [hcut]
      exact .empty
    · rw [hcut]
      exact fun _ => .symbol (by decide) (by decide)
    · rw [hcut]
      exact fun hnone => absurd (by decide) hnone
  case part =>
    rw [hcut, hshort]
    match i, hi with
    | 0, _ | 1, _ | 2, _ => rfl

end Alias

end StyleProps
