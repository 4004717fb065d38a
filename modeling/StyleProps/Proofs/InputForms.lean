import StyleProps.Proofs.Loading

/-!
# Two forms of props on the command line

Texts are given to props either by arguments or by the members of a JSON object, which is read from
a file or from standard input. Both forms lead to the same props (`loadProps_object`), with the last
text under a repeated name in the place of its first, and the rest of a run depends on the options
alone. So the two runs leave the same report behind.
-/

namespace StyleProps.CommandLine

/-! ## Options and props -/

/-- An argument that does not start with a dash is a prop. -/
theorem Argument.ofText_of_head {text : String} (h : text.toList.head? ≠ some '-') :
    ofText text = .prop text := by
  unfold ofText
  split <;> simp_all

/-- Two dashes alone end the options. -/
theorem Argument.eq_of_ofText_eq_endOfOptions {text : String} (h : ofText text = .endOfOptions) :
    text = "--" := by
  unfold ofText at h
  split at h
  · next heq => exact String.toList_injective heq
  · dsimp only at h
    unfold ofLong at h
    split at h <;> cases h
  all_goals cases h

namespace Arguments

/-- After arguments that are read, and that do not end the options, further ones are taken. -/
theorem parseFrom?_append {a o : Arguments} {words : List String} (hend : "--" ∉ words)
    (h : parseFrom? a words = some (.run o)) (more : List String) :
    parseFrom? a (words ++ more) = parseFrom? o more := by
  fun_induction parseFrom? a words with
  | case1 a => rw [List.nil_append, (finish?_eq_some_iff.mp h).2]
  | case3 a text rest htext =>
      exact absurd (Argument.eq_of_ofText_eq_endOfOptions htext ▸ List.mem_cons_self) hend
  -- In every other case, both sides take the same step, or nothing is read.
  | _ => simp_all [parseFrom?]

/-- Props are taken one after another. -/
theorem parseFrom?_props {a : Arguments} {props : List String}
    (h : ∀ text ∈ props, Argument.ofText text = .prop text) :
    parseFrom? a props = finish? { a with props := a.props ++ props } := by
  induction props generalizing a with
  | nil => simp [parseFrom?]
  | cons text rest ih =>
      rw [List.forall_mem_cons] at h
      simp [parseFrom?, h.1, ih h.2]

/-- Props can follow options that set neither a file of props nor a table to list. -/
theorem parse?_append_props {o : Arguments} {words props : List String} (hend : "--" ∉ words)
    (h : parse? words = some (.run o)) (hinput : o.input = .none) (hlist : o.list = .none)
    (hprops : o.props = []) (htexts : ∀ text ∈ props, Argument.ofText text = .prop text) :
    parse? (words ++ props) = some (.run { o with props }) := by
  rw [parse?, parseFrom?_append hend h, parseFrom?_props htexts, finish?_eq_some_iff]
  simp [hasConflict, hinput, hlist, hprops]

/-- A file of props can be given after options that set neither a file of props nor a table to
list. -/
theorem parse?_append_input {o : Arguments} {words : List String} (hend : "--" ∉ words)
    (h : parse? words = some (.run o)) (hinput : o.input = .none) (hlist : o.list = .none)
    (hprops : o.props = []) {path : String} (hpath : Argument.isValue path = true) :
    parse? (words ++ ["--input", path]) = some (.run { o with input := path }) := by
  have hword : Argument.ofText "--input" = .setting .input .none := by decide +kernel
  rw [parse?, parseFrom?_append hend h]
  simp [parseFrom?, hword, hpath, set?, hinput, finish?, hasConflict, hlist, hprops]

end Arguments

/-! ## Texts of props -/

/-- The member of an object that gives a text to a prop. -/
def pairMember (pair : String × String) : String × Json :=
  (pair.1, .string pair.2)

/-- An argument whose name does not start with a dash is a prop. -/
theorem ofText_pairArgument {pair : String × String} (h : pair.1.toList.head? ≠ some '-') :
    Argument.ofText (pairArgument pair) = .prop (pairArgument pair) := by
  refine Argument.ofText_of_head ?_
  rw [pairArgument, String.append_assoc, String.toList_append]
  cases hname : pair.1.toList with
  | nil => simp
  | cons c rest => simpa [hname] using h

/-- The props of a run that is given an object. -/
theorem loadProps_object {sources : Sources} {a : Arguments} {pairs : List (String × String)}
    {text : String} (hprops : a.props = []) (htext : readProps sources a.input = .ok text)
    (hdocument : Json.IsDocument text (.object (pairs.map pairMember))) :
    loadProps sources a = .ok (.ofList (pairs.map pairProp)) := by
  refine (loadProps_of_document hprops).mpr ⟨text, _, htext, hdocument, ?_⟩
  rw [Props.ofMembers, List.map_map]
  rfl

/-! ## Runs -/

/-- The configuration of a run depends on the path of its file and on what the file holds. -/
theorem loadConfig_congr {sources other : Sources} {a b : Arguments} (hconfig : a.config = b.config)
    (hfile : ∀ path ∈ a.config, other.file path = sources.file path) :
    loadConfig sources a = loadConfig other b := by
  unfold loadConfig
  rw [← hconfig]
  cases hpath : a.config with
  | none => rfl
  | some path => simp only [hfile path hpath]

/-- Runs with the same options, the same configuration and the same props leave the same report
behind. -/
theorem execute_congr {sources other : Sources} {a b : Arguments}
    (hconfig : loadConfig sources a = loadConfig other b) (hlist : a.list = none)
    (hlist' : b.list = none) (hprops : loadProps sources a = loadProps other b)
    (hstrict : a.strict = b.strict) (hcompact : a.compact = b.compact) :
    execute sources a = execute other b := by
  simp only [execute, report, hconfig, hlist, hlist', hprops, hstrict, hcompact]

/-- Texts for props lead to the same report whether they are given by arguments or by the members of
an object, from a file or from standard input, if the names hold no equals sign and do not start
with a dash. After options, such arguments are taken as props, and a file as the one to read. -/
theorem run_pairs_eq_run_object {pairs : List (String × String)} (hne : pairs ≠ [])
    (hnames : ∀ pair ∈ pairs, '=' ∉ pair.1.toList ∧ pair.1.toList.head? ≠ some '-') :
    (∀ (words : List String) (o : Arguments), "--" ∉ words →
      Arguments.parse? words = some (.run o) → o.input = none → o.list = none → o.props = [] →
        Arguments.parse? (words ++ pairs.map pairArgument) =
            some (.run { o with props := pairs.map pairArgument }) ∧
          ∀ path, Argument.isValue path = true →
            Arguments.parse? (words ++ ["--input", path]) =
              some (.run { o with input := path })) ∧
    ∀ (sources other : Sources) (o : Arguments) (given : Option String)
      (texts others : List String) (text : String),
      (∀ path ∈ o.config, other.file path = sources.file path) →
      Arguments.parse? texts = some (.run { o with
        input := none, list := none, props := pairs.map pairArgument }) →
      Arguments.parse? others = some (.run { o with
        input := given, list := none, props := [] }) →
      readProps other given = .ok text →
      Json.IsDocument text (.object (pairs.map pairMember)) →
        run sources texts = run other others := by
  refine ⟨fun words o hend hwords hinput hlist hprops => ⟨?arguments, fun path hpath => ?file⟩,
    fun sources other o given texts others text hfile htexts hothers htext hdocument => ?same⟩
  case arguments =>
    refine Arguments.parse?_append_props hend hwords hinput hlist hprops fun text hmem => ?_
    obtain ⟨pair, hpair, rfl⟩ := List.mem_map.mp hmem
    exact ofText_pairArgument (hnames pair hpair).2
  case file => exact Arguments.parse?_append_input hend hwords hinput hlist hprops hpath
  case same =>
    simp only [run, htexts, hothers]
    refine execute_congr (loadConfig_congr rfl hfile) rfl rfl ?_ rfl rfl
    have hpairs : GivesProps sources
        { o with input := none, list := none, props := pairs.map pairArgument }
        (.ofList (pairs.map pairProp)) :=
      .arguments hne (fun pair hmem => (hnames pair hmem).1) rfl
    rw [loadProps_eq_ok_iff.mpr hpairs, loadProps_object rfl htext hdocument]

/-- A name is repeated, and the texts hold quotes, a backslash, a line break and further equals
signs. The same texts are given by arguments, by a file and by standard input. -/
theorem run_pairs_eq_run_object_escapes :
    let pairs := [("color", "\"a\"=b\\"), ("p", "4"), ("color", "red\n|:hover=\u00e9")]
    let words := ["--compact", "--config", "styles.yaml", "--strict"]
    let text := (Json.object (pairs.map pairMember)).compact
    let sources : Sources := ⟨fun _ => .ok "media: {tablet: wide}", .error .notText⟩
    let files : Sources :=
      ⟨fun path => if path = "props.json" then .ok text else sources.file path, .error .missing⟩
    let stream : Sources := ⟨sources.file, .ok text⟩
    run sources (words ++ pairs.map pairArgument) = run files (words ++ ["--input", "props.json"]) ∧
      run sources (words ++ pairs.map pairArgument) = run stream words := by
  intro pairs words text sources files stream
  let o : Arguments := ⟨none, some "styles.yaml", true, true, none, []⟩
  have hwords : Arguments.parse? words = some (.run o) := by decide +kernel
  have hdocument : Json.IsDocument text (.object (pairs.map pairMember)) :=
    Json.isDocument_compact (by simp [pairs, pairMember, Json.tokens, Json.memberTokens,
      Json.moreMemberTokens]) (by decide)
  obtain ⟨hparse, hrun⟩ := @run_pairs_eq_run_object pairs (by simp [pairs])
    (by decide +kernel)
  obtain ⟨hargs, hinput⟩ := hparse words o (by decide +kernel) hwords rfl rfl rfl
  constructor
  · refine hrun sources files o (some "props.json") _ _ text ?_ hargs
      (hinput "props.json" (by decide +kernel)) ?_ hdocument
    · rintro path ⟨⟩
      rfl
    · rfl
  · exact hrun sources stream o none _ _ text (fun _ _ => rfl) hargs hwords rfl hdocument

end StyleProps.CommandLine
