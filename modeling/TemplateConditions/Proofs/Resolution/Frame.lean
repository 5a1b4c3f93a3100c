import TemplateConditions.Proofs.Resolution.Trees
import TemplateConditions.Template.Basic

/-!
# What a resolution reads

Resolving a name reads the definition of that name, and from there on those of all names that a
definition in reach mentions.  Two templates that agree on these have the same condition under the
name, with the same findings, whatever else is in them.
-/

namespace TemplateConditions

/-! ## Written combinations -/

namespace Definition

/-- A written combination has one list of targets. -/
theorem targets_eq_of_combinationToJson {connective other : Connective}
    {targets others : List String}
    (h : combinationToJson connective targets = combinationToJson other others) :
    targets = others := by
  simp only [combinationToJson, Json.object.injEq, List.cons.injEq, Prod.mk.injEq,
    Json.array.injEq, and_true] at h
  exact targetToJson_injective.list_map h.2

end Definition

/-! ## Names in reach -/

namespace Definitions

/-- The definition of the parent is a combination with the target in it; whether the connective
takes so many targets, and whether they are declared, does not matter. -/
def Mentions (definitions : Definitions) (parent target : String) : Prop :=
  ∃ connective targets,
    Ordered.find? parent definitions = some (Definition.combinationToJson connective targets) ∧
      target ∈ targets

theorem mentions_iff {definitions : Definitions} {parent target : String}
    {connective : Connective} {targets : List String}
    (hfound : Ordered.find? parent definitions =
      some (Definition.combinationToJson connective targets)) :
    definitions.Mentions parent target ↔ target ∈ targets := by
  constructor
  · rintro ⟨other, others, hother, htarget⟩
    have hwritten : Definition.combinationToJson connective targets =
        Definition.combinationToJson other others := Option.some.inj (hfound.symm.trans hother)
    rw [Definition.targets_eq_of_combinationToJson hwritten]
    exact htarget
  · intro htarget
    exact ⟨connective, targets, hfound, htarget⟩

theorem Compares.not_mentions {definitions : Definitions} {parent target : String}
    {clause : Clause} (h : definitions.Compares parent clause) :
    ¬ definitions.Mentions parent target := by
  rintro ⟨connective, targets, hfound, _⟩
  obtain ⟨argument, hcompares, _⟩ := h
  have hwritten := Option.some.inj (hcompares.symm.trans hfound)
  simp only [Definition.combinationToJson, Json.object.injEq, List.cons.injEq, Prod.mk.injEq,
    and_true] at hwritten
  have hfunction : "Fn::Equals" = connective.function := hwritten.1
  cases connective <;> exact absurd hfunction (by decide)

/-- All names in reach of a name have the same definition in both, or none in both. -/
def AgreeFrom (definitions others : Definitions) (name : String) : Prop :=
  ∀ target, Relation.ReflTransGen definitions.Mentions name target →
    Ordered.find? target definitions = Ordered.find? target others

variable {definitions others : Definitions} {name : String}

theorem AgreeFrom.find?_eq (h : definitions.AgreeFrom others name) :
    Ordered.find? name definitions = Ordered.find? name others :=
  h name .refl

theorem AgreeFrom.target {target : String} (h : definitions.AgreeFrom others name)
    (hmentions : definitions.Mentions name target) : definitions.AgreeFrom others target :=
  fun lower hreach => h lower (.head hmentions hreach)

theorem AgreeFrom.declares_eq (h : definitions.AgreeFrom others name) :
    definitions.declares name = others.declares name := by
  rw [declares, declares, h.find?_eq]

end Definitions

/-! ## Resolution -/

theorem resolveEach_congr {step step' : Session → String → Outcome Built} {names : List String}
    (h : ∀ name ∈ names, ∀ session, step session name = step' session name)
    (session : Session) : resolveEach step session names = resolveEach step' session names := by
  induction names generalizing session with
  | nil => rfl
  | cons name rest ih =>
    have hrest : ∀ session, resolveEach step session rest = resolveEach step' session rest :=
      ih fun other hother => h other (List.mem_cons_of_mem _ hother)
    simp only [resolveEach, h name List.mem_cons_self, hrest]

variable {definitions others : Definitions}

/-- Resolution takes the same steps with both: it visits the same names in the same sessions. -/
theorem resolveBelow_congr (room : Nat) (path : List String) (session : Session) {name : String}
    (h : definitions.AgreeFrom others name) :
    resolveBelow definitions room path session name =
      resolveBelow others room path session name := by
  induction room generalizing path session name with
  | zero => rw [resolveBelow, resolveBelow]
  | succ room ih =>
    rw [resolveBelow, resolveBelow, ← h.find?_eq]
    cases hfound : Ordered.find? name definitions with
    | none => rfl
    | some definition =>
      dsimp only
      cases hread : Definition.ofJson definition with
      | error fault => rfl
      | ok read =>
        cases read with
        | comparison clause => rfl
        | combination connective targets =>
          obtain ⟨rfl, _⟩ := Definition.ofJson_eq_combination_iff.1 hread
          -- The check for undeclared targets reads names that may never be visited.
          have htargets : ∀ target ∈ targets, definitions.AgreeFrom others target :=
            fun target htarget => h.target ⟨connective, targets, hfound, htarget⟩
          have hmissing : (targets.filter fun target => !definitions.declares target) =
              targets.filter fun target => !others.declares target :=
            List.filter_congr fun target htarget => by rw [(htargets target htarget).declares_eq]
          have heach := resolveEach_congr (fun target htarget session =>
            ih (name :: path) session (htargets target htarget)) session
          dsimp only
          rw [hmissing, heach]

/-- A name has the same condition and the same findings in both. -/
theorem Condition.resolve_congr (limit : Nat) {name : String}
    (h : definitions.AgreeFrom others name) :
    Condition.resolve definitions limit name = Condition.resolve others limit name := by
  have hbelow := resolveBelow_congr limit [] {} h
  rw [Condition.resolve, Condition.resolve, Session.resolve, Session.resolve, hbelow]

/-! ## Changes out of reach -/

section

variable {name key : String}

theorem Definitions.agreeFrom_insert
    (hout : ¬ Relation.ReflTransGen definitions.Mentions name key) (definition : Json) :
    definitions.AgreeFrom (Ordered.insert key definition definitions) name := by
  intro target hreach
  rw [Ordered.find?_insert, if_neg]
  rintro rfl
  exact hout hreach

theorem Definitions.agreeFrom_filter
    (hout : ¬ Relation.ReflTransGen definitions.Mentions name key) :
    definitions.AgreeFrom (definitions.filter fun entry => entry.1 ≠ key) name := by
  intro target hreach
  rw [Ordered.find?_filter_ne]
  rintro rfl
  exact hout hreach

/-- Only the section of conditions declares conditions. -/
theorem Template.definitions_insert (template : Template) (hkey : key ≠ "Conditions")
    (value : Json) :
    (Template.mk (Ordered.insert key value template.members)).definitions =
      template.definitions := by
  rw [definitions, definitions, conditions?, conditions?, objectAt?, objectAt?,
    Ordered.find?_insert, if_neg hkey.symm]

end

/-! ## Main result -/

/-- Resolving a name depends on the definitions in its reach alone: where another template has the
same ones, or none in the same places, condition and findings are the same.  So nothing changes if
a condition out of reach is added, replaced or removed, or another section of the template is
written. -/
theorem resolve_reads_reach (template : Template) (limit : Nat) (name : String) :
    let resolved := Condition.resolve template.definitions limit name
    let inReach := Relation.ReflTransGen template.definitions.Mentions name
    (∀ other : Template,
      (∀ target, inReach target → template.definition? target = other.definition? target) →
        Condition.resolve other.definitions limit name = resolved) ∧
    (∀ key, ¬ inReach key →
      (∀ definition,
        Condition.resolve (Ordered.insert key definition template.definitions) limit name =
          resolved) ∧
      Condition.resolve (template.definitions.filter fun entry => entry.1 ≠ key) limit name =
        resolved) ∧
    ∀ key value, key ≠ "Conditions" →
      Condition.resolve (Template.mk (Ordered.insert key value template.members)).definitions
        limit name = resolved := by
  intro resolved inReach
  refine ⟨fun other hagree => ?_, fun key hout => ⟨fun definition => ?_, ?_⟩,
    fun key value hkey => ?_⟩
  · exact (Condition.resolve_congr limit hagree).symm
  · exact (Condition.resolve_congr limit (Definitions.agreeFrom_insert hout definition)).symm
  · exact (Condition.resolve_congr limit (Definitions.agreeFrom_filter hout)).symm
  · rw [template.definitions_insert hkey]

/-- In reach of a negation of a comparison are these two. -/
theorem eq_of_inReach_dev {target : String}
    (h : Relation.ReflTransGen prodAndDev.Mentions "Dev" target) :
    target = "Dev" ∨ target = "Prod" := by
  induction h with
  | refl => exact .inl rfl
  | tail _ hmentions ih =>
    rcases ih with rfl | rfl
    · exact .inr (List.mem_singleton.1 ((Definitions.mentions_iff rfl).1 hmentions))
    · have hprod : prodAndDev.Compares "Prod" ⟨Token.ofName "Env", .literal "prod"⟩ :=
        ⟨_, rfl, rfl⟩
      exact absurd hmentions hprod.not_mentions

/-- A condition that negates itself makes no difference to others that do not mention it, and
neither does a broken one or another section. -/
theorem resolve_dev_beside_loop :
    let template : Template := ⟨[("Conditions", .object prodAndDev)]⟩
    let loop := Definition.combinationToJson .not ["Loop"]
    let withLoop : Template := ⟨[("Conditions", .object (Ordered.insert "Loop" loop prodAndDev))]⟩
    let inReach := Relation.ReflTransGen template.definitions.Mentions "Dev"
    (∀ target, inReach target → template.definition? target = withLoop.definition? target) ∧
      ¬ inReach "Loop" ∧ "Parameters" ≠ "Conditions" ∧
      ∀ others ∈ [withLoop.definitions, Ordered.insert "Loop" .null template.definitions,
          (Template.mk (Ordered.insert "Parameters" .null template.members)).definitions],
        Condition.resolve others 64 "Dev" = Condition.resolve template.definitions 64 "Dev" := by
  intro template loop withLoop inReach
  have hagree : ∀ target, inReach target →
      template.definition? target = withLoop.definition? target := by
    intro target hreach
    rcases eq_of_inReach_dev hreach with rfl | rfl <;> rfl
  have hout : ¬ inReach "Loop" := by
    intro hreach
    rcases eq_of_inReach_dev hreach with heq | heq <;> exact absurd heq (by decide)
  have hkey : "Parameters" ≠ "Conditions" := by decide
  obtain ⟨hsame, hchange, hsection⟩ := resolve_reads_reach template 64 "Dev"
  refine ⟨hagree, hout, hkey, ?_⟩
  intro others hothers
  simp only [List.mem_cons, List.not_mem_nil, or_false] at hothers
  rcases hothers with rfl | rfl | rfl
  · exact hsame withLoop hagree
  · exact (hchange "Loop" hout).1 .null
  · exact hsection "Parameters" .null hkey

end TemplateConditions
