import Mathlib.Data.List.Basic
import Mathlib.Data.Option.Basic
import TemplateConditions.Cli.Run
import TemplateConditions.Proofs.Text.Trimming

/-!
# What a run depends on

A run reads the template of its command and the files in which its settings may stand, and asks for
few variables of its environment: the one that sets the depth limit, and those that its settings set
or refer to.  Files and environments that agree on these lead to the same outcome.
-/

namespace TemplateConditions.Cli

namespace Environment

/-- The environments give each of the names the same value, or none. -/
def AgreeOn (names : List String) (env other : Environment) : Prop :=
  ∀ name ∈ names, env.lookup name = other.lookup name

variable {names : List String} {env other : Environment}

/-! ## Values -/

/-- The name of which a part has been read, when the text goes on from here.  Only in front of its
first character can a brace open. -/
def nameFrom (name cs : List Char) : List Char :=
  if name = [] then nameAt cs else name ++ cs.takeWhile Text.isAlphanumeric

theorem nameFrom_nil (name : List Char) : nameFrom name [] = name := by
  cases name <;> simp [nameFrom, nameAt]

theorem nameFrom_of_isAlphanumeric {c : Char} (h : Text.isAlphanumeric c) (name rest : List Char) :
    nameFrom name (c :: rest) = nameFrom (name ++ [c]) rest := by
  have hc : c ≠ '\x7b' := by
    rintro rfl
    exact absurd h (by decide +kernel)
  cases name <;> simp [nameFrom, nameAt, hc, h]

theorem nameFrom_of_end {c : Char} {name : List Char} (h : ¬ Text.isAlphanumeric c)
    (hname : ¬ (c = '\x7b' ∧ name = [])) (rest : List Char) :
    nameFrom name (c :: rest) = name := by
  cases name with
  | nil =>
    have hc : c ≠ '\x7b' := by simpa using hname
    simp [nameFrom, nameAt, hc, h]
  | cons d ds => simp [nameFrom, h]

theorem namesIn_subset_cons (c : Char) (rest : List Char) : namesIn rest ⊆ namesIn (c :: rest) := by
  rw [namesIn]
  split
  · exact List.subset_cons_self _ _
  · exact List.Subset.refl _

theorem namesIn_subset_of_suffix {cs whole : List Char} (h : cs <:+ whole) :
    namesIn cs ⊆ namesIn whole := by
  obtain ⟨front, rfl⟩ := h
  induction front with
  | nil => exact List.Subset.refl _
  | cons c front ih => exact List.Subset.trans ih (namesIn_subset_cons c (front ++ cs))

namespace Mode

/-- The names that may be asked for while a value is read on from here. -/
def asked : Mode → List Char → List (List Char)
  | name chars, cs => nameFrom chars cs :: namesIn cs
  | braced chars, cs => (chars ++ cs.takeWhile (· ≠ '\x7d')) :: namesIn cs
  | _, cs => namesIn cs

theorem namesIn_subset_asked (mode : Mode) (cs : List Char) : namesIn cs ⊆ mode.asked cs := by
  cases mode with
  | text | single | escape | behind => exact List.Subset.refl _
  | name | braced => exact List.subset_cons_self _ _

theorem asked_of_dollar (rest : List Char) : asked (name []) rest = namesIn ('$' :: rest) := by
  simp [asked, nameFrom, namesIn]

theorem asked_of_brace (rest : List Char) :
    asked (braced []) rest ⊆ asked (name []) ('\x7b' :: rest) := by
  simpa [asked, nameFrom, nameAt] using List.subset_cons_of_subset _ (namesIn_subset_cons _ rest)

theorem asked_of_isAlphanumeric {c : Char} (h : Text.isAlphanumeric c) (chars rest : List Char) :
    asked (name (chars ++ [c])) rest ⊆ asked (name chars) (c :: rest) := by
  simp only [asked, nameFrom_of_isAlphanumeric h]
  exact List.cons_subset_cons _ (namesIn_subset_cons c rest)

theorem asked_of_braced {c : Char} (h : c ≠ '\x7d') (chars rest : List Char) :
    asked (braced (chars ++ [c])) rest ⊆ asked (braced chars) (c :: rest) := by
  simpa [asked, h] using List.subset_cons_of_subset _ (namesIn_subset_cons c rest)

end Mode

/-- Only the names that are asked for count in the reading of a value. -/
theorem readValue?_congr {mode : Mode} {cs : List Char} (double : Bool)
    (h : ∀ name ∈ mode.asked cs, env.valueOf name = other.valueOf name) :
    readValue? env double mode cs = readValue? other double mode cs := by
  induction cs generalizing double mode with
  | nil =>
    cases mode with
    | text | single | escape | behind | braced => rfl
    | name chars =>
      have hchars : env.valueOf chars = other.valueOf chars :=
        h chars (by simp [Mode.asked, nameFrom_nil])
      simp only [readValue?, hchars]
  | cons c rest ih =>
    have reading (next : Mode) (hasked : next.asked rest ⊆ mode.asked (c :: rest)) (double : Bool) :
        readValue? env double next rest = readValue? other double next rest :=
      ih double fun name hname => h name (hasked hname)
    have hrest : namesIn rest ⊆ mode.asked (c :: rest) :=
      List.Subset.trans (namesIn_subset_cons c rest) (mode.namesIn_subset_asked (c :: rest))
    have hdollar (hc : c = '$') : Mode.asked (.name []) rest ⊆ mode.asked (c :: rest) := by
      rw [hc, Mode.asked_of_dollar]
      exact mode.namesIn_subset_asked ('$' :: rest)
    cases mode with
    | text =>
      by_cases hc : c = '$'
      · simp only [readValue?, if_pos hc, reading _ (hdollar hc)]
      · simp only [readValue?, if_neg hc, reading .text hrest, reading .escape hrest,
          reading .single hrest, reading .behind hrest]
    | single => simp only [readValue?, reading .text hrest, reading .single hrest]
    | escape => simp only [readValue?, reading .text hrest]
    | behind => simp only [readValue?, reading .behind hrest]
    | name chars =>
      -- the name goes on, opens a brace, or ends in front of `c`
      by_cases halphanumeric : Text.isAlphanumeric c
      · simp only [readValue?, if_pos halphanumeric,
          reading _ (Mode.asked_of_isAlphanumeric halphanumeric chars rest)]
      by_cases hbrace : c = '\x7b' ∧ chars = []
      · obtain ⟨rfl, rfl⟩ := hbrace
        simp only [readValue?, if_neg halphanumeric, and_self, ↓reduceIte,
          reading _ (Mode.asked_of_brace rest)]
      have hchars : env.valueOf chars = other.valueOf chars :=
        h chars (by simp [Mode.asked, nameFrom_of_end halphanumeric hbrace])
      by_cases hc : c = '$'
      · simp only [readValue?, if_neg halphanumeric, if_neg hbrace, if_pos hc, hchars,
          reading _ (hdollar hc)]
      · simp only [readValue?, if_neg halphanumeric, if_neg hbrace, if_neg hc, hchars,
          reading .text hrest]
    | braced chars =>
      by_cases hc : c = '\x7d'
      · have hchars : env.valueOf chars = other.valueOf chars :=
          h chars (by simp [Mode.asked, hc])
        simp only [readValue?, if_pos hc, hchars, reading .text hrest]
      · simp only [readValue?, if_neg hc, reading _ (Mode.asked_of_braced hc chars rest)]

/-! ## Lines -/

theorem readName?_suffix {cs rest : List Char} {name : String}
    (h : readName? cs = some (name, rest)) : rest <:+ cs := by
  simp only [readName?] at h
  split at h
  · cases h
  · split at h
    · cases h
      exact (Text.trimLeft_suffix _).trans (List.drop_suffix _ cs)
    · cases h

theorem readTarget?_suffix {cs rest : List Char} {name : String}
    (h : readTarget? cs = some (name, rest)) : rest <:+ cs := by
  simp only [readTarget?, Option.bind_eq_bind, Option.bind_eq_some_iff] at h
  obtain ⟨_, hfirst, h⟩ := h
  split at h
  · cases h
    exact (List.suffix_cons _ _).trans (readName?_suffix hfirst)
  · obtain ⟨_, hsecond, h⟩ := Option.bind_eq_some_iff.mp h
    split at h
    · cases h
      exact (List.suffix_cons _ _).trans <|
        (readName?_suffix hsecond).trans (readName?_suffix hfirst)
    · cases h
  · cases h

theorem readBehind?_congr {cs : List Char}
    (h : ∀ name ∈ namesIn cs, env.valueOf name = other.valueOf name) :
    env.readBehind? cs = other.readBehind? cs := by
  have hread : readValue? env false .text (Text.trimLeft cs) =
      readValue? other false .text (Text.trimLeft cs) :=
    readValue?_congr false fun name hname =>
      h name (namesIn_subset_of_suffix (Text.trimLeft_suffix cs) hname)
  simp only [readBehind?]
  split
  · rfl
  · rfl
  · exact hread

theorem readLine?_congr {line : String} (h : AgreeOn (namesOfLine line) env other) :
    env.readLine? line = other.readLine? line := by
  have hvalueOf : ∀ name ∈ namesIn (trimLine line), env.valueOf name = other.valueOf name := by
    intro name hname
    have hlookup : env.lookup (String.ofList name) = other.lookup (String.ofList name) :=
      h _ (List.mem_append_right _ (List.mem_map_of_mem hname))
    simp only [valueOf, hlookup]
  simp only [readLine?]
  split
  · rfl
  · rfl
  · refine Option.bind_congr fun (name, rest) htarget => ?_
    have hvalue : env.readBehind? rest = other.readBehind? rest :=
      readBehind?_congr fun name hname =>
        hvalueOf name (namesIn_subset_of_suffix (readTarget?_suffix htarget) hname)
    simp only [hvalue]

theorem mem_namesOfLine {line name value : String}
    (h : env.readLine? line = some (some (name, value))) : name ∈ namesOfLine line := by
  simp only [readLine?, Option.bind_eq_bind] at h
  split at h
  · cases h
  · cases h
  · obtain ⟨target, htarget, h⟩ := Option.bind_eq_some_iff.mp h
    obtain ⟨_, -, h⟩ := Option.bind_eq_some_iff.mp h
    cases h
    simp [namesOfLine, htarget]

theorem setDefault?_rel {name : String} (h : AgreeOn names env other) (hname : name ∈ names)
    (value : String) :
    Option.Rel (AgreeOn names) (env.setDefault? name value) (other.setDefault? name value) := by
  simp only [setDefault?, h name hname]
  split
  · exact .some h
  split
  · exact .none
  · refine .some fun asked hasked => ?_
    simp only [List.lookup_append, h asked hasked]

theorem applyLines?_rel {lines : List (Option String)} (h : AgreeOn names env other)
    (hlines : ∀ line, some line ∈ lines → namesOfLine line ⊆ names) :
    Option.Rel (AgreeOn names) (env.applyLines? lines) (other.applyLines? lines) := by
  induction lines generalizing env other with
  | nil => exact .some h
  | cons line rest ih =>
    have hrest : ∀ line, some line ∈ rest → namesOfLine line ⊆ names :=
      fun line hline => hlines line (List.mem_cons_of_mem _ hline)
    cases line with
    | none => exact .some h
    | some line =>
      have hline : namesOfLine line ⊆ names := hlines line List.mem_cons_self
      have hread : env.readLine? line = other.readLine? line :=
        readLine?_congr fun name hname => h name (hline hname)
      rw [applyLines?, applyLines?, ← hread]
      cases hset : env.readLine? line with
      | none => exact .some h
      | some setting =>
        cases setting with
        | none => exact ih h hrest
        | some setting =>
          obtain ⟨name, value⟩ := setting
          dsimp only [Option.bind_eq_bind]
          match env.setDefault? name value, other.setDefault? name value,
            setDefault?_rel h (hline (mem_namesOfLine hset)) value with
          | _, _, .none => exact .none
          | _, _, .some hagree => exact ih hagree hrest

theorem applyFile?_rel {content : ByteArray} (h : AgreeOn names env other)
    (hnames : namesOfFile content ⊆ names) :
    Option.Rel (AgreeOn names) (env.applyFile? content) (other.applyFile? content) :=
  applyLines?_rel h fun line hline name hname =>
    hnames (List.mem_flatMap.mpr ⟨some line, hline, by simpa using hname⟩)

end Environment

/-! ## Runs -/

section Variables

variable {env other : Environment} {files : Files} {above : Nat}

/-- The settings of a run ask for none but the variables of the run. -/
theorem environmentWith?_rel
    (h : Environment.AgreeOn (variablesRead files above) env other) :
    Option.Rel (Environment.AgreeOn (variablesRead files above))
      (environmentWith? env files above) (environmentWith? other files above) := by
  cases hcontent : settings? files above with
  | none =>
    simp only [environmentWith?, hcontent]
    exact .some h
  | some content =>
    have hnames : Environment.namesOfFile content ⊆ variablesRead files above := by
      simp [variablesRead, hcontent]
    simp only [environmentWith?, hcontent]
    exact Environment.applyFile?_rel h hnames

/-- Environments that agree on the variables of a run lead to the same outcome. -/
theorem run_eq_of_agreeOn (h : Environment.AgreeOn (variablesRead files above) env other)
    (arguments : List String) :
    run arguments env files above = run arguments other files above := by
  simp only [run]
  match environmentWith? env files above, environmentWith? other files above,
    environmentWith?_rel h with
  | _, _, .none => rfl
  | _, _, .some hagree =>
    simp only [Invocation.limit, hagree DepthLimit.environmentName List.mem_cons_self]

end Variables

section Paths

variable {files other : Files} {paths : List String}

theorem firstFile?_congr (h : ∀ path ∈ paths, files path = other path) :
    firstFile? files paths = firstFile? other paths := by
  induction paths with
  | nil => rfl
  | cons path rest ih =>
    obtain ⟨hpath, hrest⟩ := List.forall_mem_cons.mp h
    simp only [firstFile?, hpath, ih hrest]

theorem Command.run_congr (command : Command)
    (h : ∀ path ∈ command.template?, files path = other path) (json : Bool) (limit : DepthLimit) :
    command.run json limit files = command.run json limit other := by
  have hload : ∀ path ∈ command.template?, load files path = load other path := by
    intro path hpath
    simp only [load, h path hpath]
  cases command with
  | list path | tree path name | test path name assignments =>
    simp only [Command.run, hload path rfl]
  | influence path name =>
    cases name <;> simp only [Command.run, hload path rfl]
  | token names => cases names <;> rfl

theorem environmentWith?_congr {above : Nat}
    (h : ∀ path ∈ settingsPaths above, files path = other path)
    (env : Environment) : environmentWith? env files above = environmentWith? env other above := by
  have hsettings : settings? files above = settings? other above := firstFile?_congr h
  simp only [environmentWith?, hsettings]

/-- Files that agree at the paths of a run lead to the same outcome. -/
theorem run_eq_of_paths {arguments : List String} {above : Nat}
    (h : ∀ path ∈ pathsRead arguments above, files path = other path) (env : Environment) :
    run arguments env files above = run arguments env other above := by
  cases hinvocation : Invocation.ofArguments arguments with
  | error exit =>
    have hpaths : ∀ path ∈ settingsPaths above, files path = other path := by
      simpa only [pathsRead, hinvocation] using h
    cases exit <;> simp only [run, hinvocation, environmentWith?_congr hpaths env]
  | ok invocation =>
    simp only [pathsRead, hinvocation, List.forall_mem_append] at h
    obtain ⟨hpaths, htemplate⟩ := h
    have hcommand := invocation.command.run_congr (by simpa using htemplate)
    simp only [run, hinvocation, environmentWith?_congr hpaths env, hcommand]

end Paths

end TemplateConditions.Cli
