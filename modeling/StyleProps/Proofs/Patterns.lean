/-!
# Patterns

Texts that are described by patterns, and how a pattern is matched with backtracking. `candidates`
lists everything that a pattern can match at the front of a text, in the order in which it is tried:
a repetition takes as many characters as it can first, and gives them back one by one if what
follows it does not match. `first?` is the match that is found. That nothing is left out and nothing
is made up is what `mem_candidates_iff` says, with `Describes` for what a pattern means.

Often nothing is gained by giving back. `first?_seq_of_total` and `first?_seq_of_longestFirst` say
when matching one pattern and then the next, without a way back, finds the same match.
-/

namespace StyleProps

/-- A class of characters: those in some ranges, or all others. -/
structure CharClass where
  excluded : Bool
  ranges : List (Char × Char)

namespace CharClass

/-- The class of some characters. -/
def of (chars : List Char) : CharClass :=
  ⟨false, chars.map fun c => (c, c)⟩

/-- The class of all other characters. -/
def except (chars : List Char) : CharClass :=
  ⟨true, chars.map fun c => (c, c)⟩

/-- Whether a character is in a class. -/
def contains (cls : CharClass) (c : Char) : Bool :=
  (cls.ranges.any fun range => decide (range.1 ≤ c ∧ c ≤ range.2)) != cls.excluded

/-- Ranges of one character each hold those characters. -/
theorem any_ranges (chars : List Char) (c : Char) :
    ((chars.map fun d => (d, d)).any fun range => decide (range.1 ≤ c ∧ c ≤ range.2)) =
      decide (c ∈ chars) := by
  induction chars with
  | nil => rfl
  | cons d rest ih =>
      have hrange : (d ≤ c ∧ c ≤ d) ↔ c = d :=
        ⟨fun ⟨hlow, hhigh⟩ => Char.le_antisymm hhigh hlow,
          fun heq => heq ▸ ⟨Char.le_refl c, Char.le_refl c⟩⟩
      simp only [List.map_cons, List.any_cons, ih, hrange, List.mem_cons, Bool.decide_or]

/-- The characters of the class of some characters. -/
@[simp] theorem contains_of (chars : List Char) (c : Char) :
    (of chars).contains c = decide (c ∈ chars) := by
  rw [contains, of, any_ranges, Bool.bne_false]

/-- The characters of the class of all other characters. -/
@[simp] theorem contains_except (chars : List Char) (c : Char) :
    (except chars).contains c = !decide (c ∈ chars) := by
  rw [contains, except, any_ranges, Bool.bne_true]

end CharClass

/-- What a pattern matches at the front of a text: the text that it takes, what is captured in it,
and the text that it leaves. -/
structure Match where
  text : List Char
  captures : List (List Char)
  rest : List Char

namespace Match

/-- A match with more text in front of it. -/
def after (front : List Char) (found : Match) : Match :=
  { found with text := front ++ found.text }

/-- One match after another. -/
def followedBy (first second : Match) : Match :=
  ⟨first.text ++ second.text, first.captures ++ second.captures, second.rest⟩

/-- A match whose text is captured. -/
def captured (found : Match) : Match :=
  { found with captures := found.text :: found.captures }

end Match

/-- A pattern. Only characters can be repeated. -/
inductive Pattern where
  /-- One character of a class. -/
  | one (cls : CharClass)
  /-- Any number of characters of a class. -/
  | many (cls : CharClass)
  /-- A pattern, or nothing. -/
  | optional (pattern : Pattern)
  /-- One pattern after another. -/
  | seq (first second : Pattern)
  /-- A pattern whose text is captured. -/
  | capture (pattern : Pattern)

/-- The runs of characters of a class at the front of a text, from the longest to the empty one. -/
def CharClass.runs (cls : CharClass) : List Char → List Match
  | [] => [⟨[], [], []⟩]
  | c :: rest =>
      (if cls.contains c then (runs cls rest).map (Match.after [c]) else []) ++
        [⟨[], [], c :: rest⟩]

namespace Pattern

/-- What a pattern can match at the front of a text, in the order in which it is tried. -/
def candidates : Pattern → List Char → List Match
  | .one _, [] => []
  | .one cls, c :: rest => if cls.contains c then [⟨[c], [], rest⟩] else []
  | .many cls, chars => cls.runs chars
  | .optional pattern, chars => pattern.candidates chars ++ [⟨[], [], chars⟩]
  | .seq first second, chars =>
      (first.candidates chars).flatMap fun found =>
        (second.candidates found.rest).map found.followedBy
  | .capture pattern, chars => (pattern.candidates chars).map Match.captured

/-- The match that is found. -/
def first? (pattern : Pattern) (chars : List Char) : Option Match :=
  (pattern.candidates chars).head?

/-- One or more characters of a class. -/
def plus (cls : CharClass) : Pattern :=
  .seq (.one cls) (.many cls)

/-- A pattern between two characters, with what stands between them captured. -/
def enclosed (opening : Char) (pattern : Pattern) (closing : Char) : Pattern :=
  .seq (.one (.of [opening])) (.seq (.capture pattern) (.one (.of [closing])))

/-! ## What can be matched -/

/-- Whether a pattern describes a text, and what is captured in it. -/
inductive Describes : Pattern → List Char → List (List Char) → Prop where
  | one {cls : CharClass} {c : Char} (h : cls.contains c = true) : Describes (.one cls) [c] []
  | many {cls : CharClass} {text : List Char} (h : ∀ c ∈ text, cls.contains c = true) :
      Describes (.many cls) text []
  | optional {pattern : Pattern} {text : List Char} {captures : List (List Char)}
      (h : Describes pattern text captures) : Describes (.optional pattern) text captures
  | nothing {pattern : Pattern} : Describes (.optional pattern) [] []
  | seq {first second : Pattern} {front back : List Char} {captures others : List (List Char)}
      (hfirst : Describes first front captures) (hsecond : Describes second back others) :
      Describes (.seq first second) (front ++ back) (captures ++ others)
  | capture {pattern : Pattern} {text : List Char} {captures : List (List Char)}
      (h : Describes pattern text captures) : Describes (.capture pattern) text (text :: captures)

/-- The runs at the front of a text are all of its fronts that have no character but those of the
class. -/
theorem mem_runs_iff {cls : CharClass} {chars : List Char} {found : Match} :
    found ∈ cls.runs chars ↔
      (∀ c ∈ found.text, cls.contains c = true) ∧ found.captures = [] ∧
        found.text ++ found.rest = chars := by
  obtain ⟨text, captures, after⟩ := found
  induction chars generalizing text with
  | nil =>
      rw [CharClass.runs, List.mem_singleton]
      constructor
      · rintro ⟨⟩
        exact ⟨(fun c hc => nomatch hc), rfl, rfl⟩
      · rintro ⟨_, rfl, happend⟩
        obtain ⟨rfl, rfl⟩ := List.append_eq_nil_iff.mp happend
        rfl
  | cons c rest ih =>
      rw [CharClass.runs, List.mem_append, List.mem_singleton]
      constructor
      · rintro (hlonger | hempty)
        · by_cases hc : cls.contains c = true
          · rw [if_pos hc] at hlonger
            obtain ⟨⟨run, captures, after⟩, hrun, ⟨⟩⟩ := List.mem_map.mp hlonger
            obtain ⟨hclass, hcaptures, happend⟩ := (ih run).mp hrun
            exact ⟨List.forall_mem_cons.mpr ⟨hc, hclass⟩, hcaptures, congrArg (c :: ·) happend⟩
          · rw [if_neg hc] at hlonger
            cases hlonger
        · cases hempty
          exact ⟨(fun c hc => nomatch hc), rfl, rfl⟩
      · rintro ⟨hclass, rfl, happend⟩
        cases text with
        | nil => exact Or.inr (congrArg (Match.mk [] []) happend)
        | cons d run =>
            obtain ⟨rfl, htail⟩ := List.cons.inj happend
            obtain ⟨hc, hrun⟩ := List.forall_mem_cons.mp hclass
            rw [if_pos hc]
            exact Or.inl (List.mem_map.mpr ⟨_, (ih run).mpr ⟨hrun, rfl, htail⟩, rfl⟩)

/-- The candidates of a pattern are all fronts of the text that it describes. -/
theorem mem_candidates_iff {pattern : Pattern} {chars : List Char} {found : Match} :
    found ∈ pattern.candidates chars ↔
      pattern.Describes found.text found.captures ∧ found.text ++ found.rest = chars := by
  induction pattern generalizing chars found with
  | one cls =>
      constructor
      · intro h
        cases chars with
        | nil => cases h
        | cons c rest =>
            rw [candidates] at h
            split at h
            · next hc =>
                rw [List.mem_singleton.mp h]
                exact ⟨.one hc, rfl⟩
            · cases h
      · rintro ⟨hdescribes, rfl⟩
        obtain ⟨text, captures, rest⟩ := found
        cases hdescribes with
        | one hc =>
            rw [List.singleton_append, candidates, if_pos hc]
            exact List.mem_singleton_self _
  | many cls =>
      rw [candidates, mem_runs_iff]
      obtain ⟨text, captures, rest⟩ := found
      constructor
      · rintro ⟨hclass, rfl, happend⟩
        exact ⟨.many hclass, happend⟩
      · rintro ⟨hdescribes, happend⟩
        cases hdescribes with
        | many hclass => exact ⟨hclass, rfl, happend⟩
  | optional pattern ih =>
      rw [candidates, List.mem_append, ih, List.mem_singleton]
      obtain ⟨text, captures, rest⟩ := found
      constructor
      · rintro (⟨hdescribes, happend⟩ | hnothing)
        · exact ⟨.optional hdescribes, happend⟩
        · cases hnothing
          exact ⟨.nothing, rfl⟩
      · rintro ⟨hdescribes, happend⟩
        cases hdescribes with
        | optional hdescribes => exact Or.inl ⟨hdescribes, happend⟩
        | nothing => exact Or.inr (congrArg (Match.mk [] []) happend)
  | seq first second ihfirst ihsecond =>
      rw [candidates, List.mem_flatMap]
      constructor
      · rintro ⟨front, hfront, hmem⟩
        obtain ⟨back, hback, rfl⟩ := List.mem_map.mp hmem
        obtain ⟨hfirst, rfl⟩ := ihfirst.mp hfront
        obtain ⟨hsecond, hrest⟩ := ihsecond.mp hback
        refine ⟨.seq hfirst hsecond, ?_⟩
        rw [← hrest]
        exact List.append_assoc _ _ _
      · rintro ⟨hdescribes, happend⟩
        obtain ⟨text, captures, rest⟩ := found
        cases hdescribes with
        | @seq _ _ front back captures others hfirst hsecond =>
            have happend : front ++ (back ++ rest) = chars :=
              (List.append_assoc front back rest).symm.trans happend
            have hback : Match.mk back others rest ∈ second.candidates (back ++ rest) :=
              ihsecond.mpr ⟨hsecond, rfl⟩
            have hfront : Match.mk front captures (back ++ rest) ∈ first.candidates chars :=
              ihfirst.mpr ⟨hfirst, happend⟩
            exact ⟨_, hfront, List.mem_map.mpr ⟨_, hback, rfl⟩⟩
  | capture pattern ih =>
      rw [candidates, List.mem_map]
      constructor
      · rintro ⟨inner, hinner, rfl⟩
        obtain ⟨hdescribes, happend⟩ := ih.mp hinner
        exact ⟨.capture hdescribes, happend⟩
      · rintro ⟨hdescribes, happend⟩
        obtain ⟨text, captures, rest⟩ := found
        have hcapture : Describes (.capture pattern) text captures := hdescribes
        cases hcapture with
        | @capture _ _ inner hpattern =>
            have hinner : Match.mk text inner rest ∈ pattern.candidates chars :=
              ih.mpr ⟨hpattern, happend⟩
            exact ⟨_, hinner, rfl⟩

/-! ## Sequences -/

/-- Each candidate of the first pattern is tried with the first candidate of the second one. -/
theorem first?_seq (first second : Pattern) (chars : List Char) :
    (seq first second).first? chars =
      (first.candidates chars).findSome? fun found =>
        (second.first? found.rest).map found.followedBy := by
  simp only [first?, candidates, List.head?_flatMap, List.head?_map]

/-- A captured text. -/
theorem first?_capture (pattern : Pattern) (chars : List Char) :
    (capture pattern).first? chars = (pattern.first? chars).map Match.captured := by
  simp only [first?, candidates, List.head?_map]

/-- One character of a class. -/
theorem first?_one_cons (cls : CharClass) (c : Char) (rest : List Char) :
    (one cls).first? (c :: rest) = if cls.contains c then some ⟨[c], [], rest⟩ else none := by
  simp only [first?, candidates]
  split <;> rfl

/-- One character of a class, and then a pattern. -/
theorem first?_one_seq_cons (cls : CharClass) (pattern : Pattern) (c : Char) (rest : List Char) :
    (seq (one cls) pattern).first? (c :: rest) =
      if cls.contains c then (pattern.first? rest).map (Match.after [c]) else none := by
  rw [first?_seq, candidates]
  by_cases h : cls.contains c = true
  · simp only [h, if_true, List.findSome?_singleton]
    rfl
  · simp only [h]
    rfl

/-- A pattern that begins with a character takes some text. -/
theorem length_rest_of_first?_one_seq {cls : CharClass} {pattern : Pattern} {chars : List Char}
    {found : Match} (h : (seq (one cls) pattern).first? chars = some found) :
    found.rest.length < chars.length := by
  cases chars with
  | nil => cases h
  | cons c rest =>
      rw [first?_one_seq_cons] at h
      split at h
      · obtain ⟨inner, hinner, rfl⟩ := Option.map_eq_some_iff.mp h
        have htext := congrArg List.length
          (mem_candidates_iff.mp (List.mem_of_mem_head? hinner)).2
        rw [List.length_append] at htext
        show inner.rest.length < rest.length + 1
        omega
      · cases h

/-- A pattern that may be left out is tried first. -/
theorem first?_optional_seq (first second : Pattern) (chars : List Char) :
    (seq (optional first) second).first? chars =
      ((seq first second).first? chars).or (second.first? chars) := by
  have hnothing : (second.first? chars).map (Match.followedBy ⟨[], [], chars⟩) =
      second.first? chars := by
    cases second.first? chars <;> rfl
  rw [first?_seq, first?_seq, candidates, List.findSome?_append, List.findSome?_singleton,
    hnothing]

/-- A pattern that may be left out always matches. -/
theorem first?_optional (pattern : Pattern) (chars : List Char) :
    (optional pattern).first? chars =
      some ((pattern.first? chars).getD ⟨[], [], chars⟩) := by
  simp only [first?, candidates, List.head?_append]
  cases (pattern.candidates chars).head? <;> rfl

/-- If the second pattern always matches, there is no way back to the first one. -/
theorem first?_seq_of_total {second : Pattern} (h : ∀ chars, second.first? chars ≠ none)
    (first : Pattern) (chars : List Char) :
    (seq first second).first? chars =
      (first.first? chars).bind fun found => (second.first? found.rest).map found.followedBy := by
  rw [first?_seq, first?]
  cases first.candidates chars with
  | nil => rfl
  | cons found others =>
      obtain ⟨next, hnext⟩ := Option.ne_none_iff_exists'.mp (h found.rest)
      simp [hnext]

/-! ## Longest candidates first -/

/-- Whether behind all candidates but the first one a character of a class follows. -/
def LongestFirst (cls : CharClass) (found : List Match) : Prop :=
  ∀ other ∈ found.tail, ∃ c rest, other.rest = c :: rest ∧ cls.contains c = true

/-- If the second pattern does not begin with a character of the class that the first one repeats,
the way back leads nowhere. -/
theorem first?_seq_of_longestFirst {cls : CharClass} {first second : Pattern} {chars : List Char}
    (hfirst : LongestFirst cls (first.candidates chars))
    (hsecond : ∀ c rest, cls.contains c = true → second.first? (c :: rest) = none) :
    (seq first second).first? chars =
      (first.first? chars).bind fun found => (second.first? found.rest).map found.followedBy := by
  rw [first?_seq, first?]
  cases hcandidates : first.candidates chars with
  | nil => rfl
  | cons longest others =>
      have hothers : others.findSome? (fun found =>
          (second.first? found.rest).map found.followedBy) = none := by
        refine List.findSome?_eq_none_iff.mpr fun other hother => ?_
        rw [hcandidates] at hfirst
        obtain ⟨c, rest, hrest, hc⟩ := hfirst other hother
        rw [hrest, hsecond c rest hc, Option.map_none]
      rw [List.findSome?_cons, hothers, List.head?_cons, Option.bind_some]
      cases (second.first? longest.rest).map longest.followedBy <;> rfl

/-- Capturing leaves the rests of candidates alone. -/
theorem LongestFirst.capture {cls : CharClass} {pattern : Pattern} {chars : List Char}
    (h : LongestFirst cls (pattern.candidates chars)) :
    LongestFirst cls ((Pattern.capture pattern).candidates chars) := by
  intro other hother
  rw [candidates, ← List.map_tail] at hother
  obtain ⟨found, hfound, rfl⟩ := List.mem_map.mp hother
  exact h found hfound

/-- The longest run is tried first. -/
theorem head?_runs (cls : CharClass) (chars : List Char) :
    (cls.runs chars).head? =
      some ⟨chars.takeWhile cls.contains, [], chars.dropWhile cls.contains⟩ := by
  induction chars with
  | nil => rfl
  | cons c rest ih =>
      rw [CharClass.runs, List.head?_append]
      by_cases hc : cls.contains c = true
      · rw [if_pos hc, List.head?_map, ih, List.takeWhile_cons_of_pos hc,
          List.dropWhile_cons_of_pos hc]
        rfl
      · rw [if_neg hc, List.takeWhile_cons_of_neg hc, List.dropWhile_cons_of_neg hc]
        rfl

/-- Behind a shorter run, a character of the class follows. -/
theorem longestFirst_runs (cls : CharClass) (chars : List Char) :
    LongestFirst cls (cls.runs chars) := by
  induction chars with
  | nil => exact fun other hother => nomatch hother
  | cons c rest ih =>
      by_cases hc : cls.contains c = true
      · intro other hother
        have hne : (cls.runs rest).map (Match.after [c]) ≠ [] := by
          rw [Ne, List.map_eq_nil_iff]
          intro hnil
          have hhead := head?_runs cls rest
          rw [hnil] at hhead
          cases hhead
        rw [CharClass.runs, if_pos hc, List.tail_append_of_ne_nil hne, ← List.map_tail] at hother
        rcases List.mem_append.mp hother with hshorter | hempty
        · obtain ⟨found, hfound, rfl⟩ := List.mem_map.mp hshorter
          exact ih found hfound
        · rw [List.mem_singleton.mp hempty]
          exact ⟨c, rest, rfl, hc⟩
      · intro other hother
        rw [CharClass.runs, if_neg hc] at hother
        cases hother

/-- Any number of characters: as many as there are. -/
theorem first?_many (cls : CharClass) (chars : List Char) :
    (many cls).first? chars =
      some ⟨chars.takeWhile cls.contains, [], chars.dropWhile cls.contains⟩ :=
  head?_runs cls chars

/-- Any number of characters before a pattern: the first of them is taken if the pattern matches
somewhere behind it, and else it is given back. -/
theorem first?_many_seq_cons (cls : CharClass) (pattern : Pattern) (c : Char) (rest : List Char) :
    (seq (many cls) pattern).first? (c :: rest) =
      (if cls.contains c then ((seq (many cls) pattern).first? rest).map (Match.after [c])
        else none).or (pattern.first? (c :: rest)) := by
  have hnothing : (pattern.first? (c :: rest)).map (Match.followedBy ⟨[], [], c :: rest⟩) =
      pattern.first? (c :: rest) := by
    cases pattern.first? (c :: rest) <;> rfl
  rw [first?_seq, candidates, CharClass.runs, List.findSome?_append, List.findSome?_singleton,
    hnothing]
  by_cases hc : cls.contains c = true
  · have hlonger : (fun found => (pattern.first? found.rest).map found.followedBy) ∘
        Match.after [c] = Option.map (Match.after [c]) ∘
          fun found => (pattern.first? found.rest).map found.followedBy := by
      funext found
      simp only [Function.comp_apply, Option.map_map]
      rfl
    rw [if_pos hc, if_pos hc, List.findSome?_map, hlonger, first?_seq, List.map_findSome?]
    rfl
  · rw [if_neg hc, if_neg hc]
    rfl

/-- One or more characters: as many as there are. -/
theorem first?_plus (cls : CharClass) (chars : List Char) :
    (plus cls).first? chars =
      if chars.takeWhile cls.contains = [] then none
      else some ⟨chars.takeWhile cls.contains, [], chars.dropWhile cls.contains⟩ := by
  cases chars with
  | nil => rfl
  | cons c rest =>
      rw [plus, first?_one_seq_cons, first?_many]
      by_cases hc : cls.contains c = true
      · simp [hc, Match.after]
      · simp [hc]

/-- One or more characters are tried from the longest run on. -/
theorem longestFirst_plus (cls : CharClass) (chars : List Char) :
    LongestFirst cls ((plus cls).candidates chars) := by
  cases chars with
  | nil => exact fun other hother => nomatch hother
  | cons c rest =>
      intro other hother
      rw [plus, candidates, candidates] at hother
      by_cases hc : cls.contains c = true
      · rw [if_pos hc, List.flatMap_singleton, candidates, ← List.map_tail] at hother
        obtain ⟨found, hfound, rfl⟩ := List.mem_map.mp hother
        exact longestFirst_runs cls rest found hfound
      · rw [if_neg hc] at hother
        cases hother

/-- No other character opens what is enclosed. -/
theorem first?_enclosed_of_ne {opening c : Char} (h : c ≠ opening) (pattern : Pattern)
    (closing : Char) (rest : List Char) :
    (enclosed opening pattern closing).first? (c :: rest) = none := by
  rw [enclosed, first?_one_seq_cons, CharClass.contains_of, if_neg (by simpa using h)]

/-- What is enclosed is matched without a way back if the closing character is none of those that
are repeated in it. -/
theorem first?_enclosed {cls : CharClass} {pattern : Pattern} {rest : List Char}
    (h : LongestFirst cls (pattern.candidates rest)) {closing : Char}
    (hclosing : cls.contains closing = false) (opening : Char) :
    (enclosed opening pattern closing).first? (opening :: rest) =
      (pattern.first? rest).bind fun found =>
        if found.rest.head? = some closing then
          some ⟨opening :: (found.text ++ [closing]), found.text :: found.captures,
            found.rest.tail⟩
        else none := by
  have hsecond : ∀ c tail, cls.contains c = true →
      (one (.of [closing])).first? (c :: tail) = none := by
    intro c tail hc
    have hne : c ≠ closing := by
      rintro rfl
      rw [hc] at hclosing
      cases hclosing
    rw [first?_one_cons, CharClass.contains_of, if_neg (by simpa using hne)]
  rw [enclosed, first?_one_seq_cons, CharClass.contains_of, if_pos (by simp),
    first?_seq_of_longestFirst h.capture hsecond, first?_capture]
  cases pattern.first? rest with
  | none => rfl
  | some found =>
      obtain ⟨text, captures, after⟩ := found
      cases after with
      | nil => rfl
      | cons d tail =>
          by_cases hd : d = closing
          · subst hd
            simp [Match.captured, Match.followedBy, Match.after, first?_one_cons]
          · simp [Match.captured, first?_one_cons, hd]

end Pattern

end StyleProps
