import TemplateConditions.Cli.Run
import TemplateConditions.Proofs.Condition.Scenarios
import TemplateConditions.Proofs.Resolution.Equations
import TemplateConditions.Proofs.Text.Bytes

/-!
# Testing a condition

What the command `test` prints and which code it ends with.  It fails exactly where there is no
template or the condition is not declared; an empty condition is tested like any other.  What it
prints is the value that the condition has among all conditions of the template.
-/

namespace TemplateConditions

/-- A name that is not declared resolves to an empty condition. -/
theorem isEmpty_resolve_of_undeclared {definitions : Definitions} {name : String}
    (h : definitions.declares name = false) (limit : Nat) :
    (Condition.resolve definitions limit name).1.tree.isEmpty = true := by
  have hfound : Ordered.find? name definitions = none := by
    rw [Definitions.declares, Option.isSome_eq_false_iff, Option.isNone_iff_eq_none] at h
    exact h
  rcases resolve_standsFor definitions limit name with ⟨hname, hunfolded, _⟩ | ⟨htree, _⟩
  · have hnothing := Definitions.saysNothing_of_not_found hfound
    rw [← hname] at hnothing
    rw [hunfolded.agrees.eq_empty hnothing]
    rfl
  · rw [htree]
    rfl

/-- A file in UTF-8 is read in the format that its extension or its text shows. -/
theorem Template.ofFile_toUTF8 (path text : String) :
    Template.ofFile path (.ok text.toUTF8) =
      if isJsonPath path then ofJsonText text else ofText text := by
  unfold Template.ofFile
  dsimp only
  rw [Text.fromUTF8?_toUTF8]

namespace Cli

/-! ## Accepted command lines -/

/-- The program takes the arguments: the settings can be made, and the arguments make the
invocation. -/
structure Accepts (arguments : List String) (given : Environment) (files : Files) (above : Nat)
    (env : Environment) (invocation : Invocation) : Prop where
  settings : environmentWith? given files above = some env
  parsed : Invocation.ofArguments arguments = .ok invocation

variable {arguments : List String} {given env : Environment} {files : Files} {above : Nat}

theorem Accepts.run_eq {invocation : Invocation}
    (h : Accepts arguments given files above env invocation) :
    run arguments given files above =
      match invocation.command.run invocation.json (invocation.limit env) files with
      | .ok output => { output }
      | .error failure => failure.outcome := by
  cases hrun : invocation.command.run invocation.json (invocation.limit env) files with
  | ok output => simp only [run, h.settings, h.parsed, hrun]
  | error failure => simp only [run, h.settings, h.parsed, hrun]

/-! ## Names of tokens -/

/-- A token is shown by a name that has it, of a parameter or a pseudo-parameter, and as it is where
no such name has it. -/
inductive Shows (template : Template) (token : Token) : String → Prop
  | known {reference : Reference} (hknown : reference ∈ knownReferences template)
    (htoken : reference.token = token) : Shows template token reference.name
  | unknown (hunknown : ∀ reference ∈ knownReferences template, reference.token ≠ token) :
    Shows template token token.hex

theorem shows_tokenName (template : Template) (token : Token) :
    Shows template token (tokenName (tokenNames template) token) := by
  unfold tokenName
  split
  · rename_i entry hentry
    have htoken : entry.1 = token := by simpa using List.find?_some hentry
    have hmem : entry ∈ tokenNames template :=
      List.mem_reverse.1 (List.mem_of_find?_eq_some hentry)
    obtain ⟨reference, hknown, rfl⟩ := List.mem_map.1 hmem
    exact .known hknown htoken
  · rename_i hnone
    refine .unknown fun reference hknown htoken => ?_
    have hmem : (reference.token, reference.name) ∈ (tokenNames template).reverse :=
      List.mem_reverse.2 (List.mem_map_of_mem hknown)
    exact List.find?_eq_none.1 hnone _ hmem (decide_eq_true htoken)

theorem forall₂_shows (template : Template) (tokens : List Token) :
    List.Forall₂ (Shows template) tokens (tokens.map (tokenName (tokenNames template))) := by
  induction tokens with
  | nil => exact .nil
  | cons token rest ih => exact .cons (shows_tokenName template token) ih

/-! ## The command -/

/-- The command needs a template and a declared condition, and nothing more. -/
theorem run_test (json : Bool) (limit : DepthLimit) (path name : String)
    (assignments : List Assignment) :
    (Command.test path name assignments).run json limit files =
      match Template.ofFile path (files path) with
      | .error cause => .error (.template path cause)
      | .ok template =>
        if template.definitions.declares name then
          .ok (test json template name (Condition.resolve template.definitions limit name).1
            (Scenario.extend ∅ assignments))
        else .error (.undefinedCondition name) := by
  rw [Command.run, load]
  cases Template.ofFile path (files path) with
  | error cause => rfl
  | ok template =>
    by_cases hdeclared : template.definitions.declares name = true
    · simp [hdeclared, bind, Except.bind, pure, Except.pure]
    · rw [Bool.not_eq_true] at hdeclared
      have hempty := isEmpty_resolve_of_undeclared hdeclared limit
      simp [hdeclared, hempty, bind, Except.bind, throw, throwThe, MonadExceptOf.throw]

variable {json : Bool} {maxDepth : Option Nat} {path name : String} {assignments : List Assignment}

theorem Accepts.run_test
    (h : Accepts arguments given files above env ⟨json, maxDepth, .test path name assignments⟩) :
    run arguments given files above =
      match Template.ofFile path (files path) with
      | .error cause => (Failure.template path cause).outcome
      | .ok template =>
        if template.definitions.declares name then
          { output := test json template name
              (Condition.resolve template.definitions
                (DepthLimit.effective maxDepth (env.lookup DepthLimit.environmentName)) name).1
              (Scenario.extend ∅ assignments) }
        else (Failure.undefinedCondition name).outcome := by
  rw [h.run_eq]
  dsimp only
  rw [Cli.run_test]
  cases Template.ofFile path (files path) with
  | error cause => rfl
  | ok template =>
    dsimp only
    by_cases hdeclared : template.definitions.declares name = true
    · rw [if_pos hdeclared, if_pos hdeclared]
      rfl
    · rw [if_neg hdeclared, if_neg hdeclared]

/-! ## Main result -/

/-- What an accepted command line for `test` comes to.  It ends with code 1 and prints nothing
exactly if there is no template or the condition is not declared.  Otherwise it ends with code 0 and
prints the value that the condition has among all conditions of the template, in the scenario where
each token has the value of its last assignment.  In JSON it also lists, strictly ascending, the
tokens that leaves of the condition compare and the scenario lacks, each by its name if it has one.
Assignments to different tokens may stand in any order. -/
theorem test_prints_evaluation
    (h : Accepts arguments given files above env ⟨json, maxDepth, .test path name assignments⟩) :
    let outcome := run arguments given files above
    let limit := DepthLimit.effective maxDepth (env.lookup DepthLimit.environmentName)
    let scenario := Scenario.extend ∅ assignments
    (outcome.code = 1 ∧ outcome.output = "" ↔
      (∃ cause, Template.ofFile path (files path) = .error cause) ∨
        ∃ template, Template.ofFile path (files path) = .ok template ∧
          template.definitions.declares name = false) ∧
    (∀ template, Template.ofFile path (files path) = .ok template →
      template.definitions.declares name = true →
        outcome.code = 0 ∧ ∃ condition result unassigned shown,
          (ConditionSet.ofDefinitions template.definitions limit).get? name = some condition ∧
          Ordered.find? name
            ((ConditionSet.ofDefinitions template.definitions limit).evaluate scenario) =
              some result ∧
          unassigned.Pairwise (fun a b => compare a b = .lt) ∧
          (∀ token, token ∈ unassigned ↔ scenario.get? token = none ∧
            ∃ leaf value, (Condition.equals leaf ⟨token, value⟩).IsNode condition.tree) ∧
          List.Forall₂ (Shows template) unassigned shown ∧
          outcome.output =
            if json then
              jsonText (.object [("condition", .string name), ("result", .bool result),
                ("unassigned", .array (shown.map .string))])
            else unlines [name ++ ": " ++ (if result then "true" else "false")]) ∧
    (∀ token, scenario.get? token =
      Ordered.last? token (assignments.map fun a => (a.target.token, a.value))) ∧
    ∀ (others : List String) (reordered : List Assignment),
      Accepts others given files above env ⟨json, maxDepth, .test path name reordered⟩ →
        assignments.Perm reordered → (assignments.map fun a => a.target.token).Nodup →
          run others given files above = outcome := by
  intro outcome limit scenario
  have hrun : outcome = _ := h.run_test
  refine ⟨?_, ?_, ?_, ?_⟩
  · rw [hrun]
    cases Template.ofFile path (files path) with
    | error cause =>
      exact iff_of_true ⟨rfl, rfl⟩ (.inl ⟨cause, rfl⟩)
    | ok template =>
      dsimp only
      by_cases hdeclared : template.definitions.declares name = true
      · -- A condition that is declared is tested, whatever became of it.
        rw [if_pos hdeclared]
        refine iff_of_false (fun hfailed => absurd hfailed.1 Nat.zero_ne_one) ?_
        rintro (⟨cause, hfault⟩ | ⟨other, hother, hundeclared⟩)
        · cases hfault
        · cases hother
          rw [hdeclared] at hundeclared
          cases hundeclared
      · rw [if_neg hdeclared]
        exact iff_of_true ⟨rfl, rfl⟩ (.inr ⟨template, rfl, by simpa using hdeclared⟩)
  · intro template hloaded hdeclared
    rw [hrun, hloaded]
    dsimp only
    rw [if_pos hdeclared]
    generalize hresolved : (Condition.resolve template.definitions limit name).1 = condition
    refine ⟨rfl, condition, condition.tree.holds scenario, condition.unassigned scenario,
      (condition.unassigned scenario).map (tokenName (tokenNames template)), ?_, ?_, ?_, ?_, ?_, ?_⟩
    · exact get?_eq_some_iff.2 ⟨hdeclared, hresolved⟩
    · rw [find?_evaluate, if_pos hdeclared, hresolved]
    · exact condition.pairwise_unassigned scenario
    · exact fun token => Resolved.mem_unassigned
    · exact forall₂_shows template _
    · rfl
  · intro token
    exact (Scenario.get?_extend ∅ assignments token).trans Option.or_none
  · intro others reordered hothers hperm hdistinct
    rw [hothers.run_test, hrun, Scenario.extend_congr ∅ hperm hdistinct]

/-- A template in JSON. -/
def isProdText : String :=
  "\x7b\"Conditions\":\x7b\"IsProd\":" ++
    "\x7b\"Fn::Equals\":[\x7b\"Ref\":\"Env\"\x7d,\"prod\"]\x7d\x7d\x7d"

/-- The definitions in it. -/
def isProd : Definitions :=
  [("IsProd", .object [("Fn::Equals",
    .array [.object [("Ref", .string "Env")], .string "prod"])])]

def isProdFiles : Files := fun path =>
  if path = "t.json" then .ok isProdText.toUTF8 else .error .missing

def isProdArguments : List String :=
  ["test", "-t", "t.json", "-c", "IsProd", "-s", "Env=dev", "-s", "Env=prod"]

/-- What the arguments assign. -/
def isProdAssignments : List Assignment :=
  [⟨⟨"Env"⟩, .literal "dev"⟩, ⟨⟨"Env"⟩, .literal "prod"⟩]

theorem ofFile_isProdFiles :
    Template.ofFile "t.json" (isProdFiles "t.json") =
      .ok ⟨[("Conditions", .object isProd)]⟩ := by
  have hread : isProdFiles "t.json" = .ok isProdText.toUTF8 := rfl
  have hjson : Template.isJsonPath "t.json" = true := rfl
  rw [hread, Template.ofFile_toUTF8, if_pos hjson]
  rfl

theorem holds_isProd :
    (Condition.resolve isProd 64 "IsProd").1.tree.holds (Scenario.extend ∅ isProdAssignments) =
      true := by
  have htree : (Condition.resolve isProd 64 "IsProd").1.tree =
      .equals "IsProd" ⟨Token.ofName "Env", .literal "prod"⟩ := rfl
  have hvalue : (Scenario.extend ∅ isProdAssignments).get? (Token.ofName "Env") =
      some (.literal "prod") := by
    rw [Scenario.get?_extend]
    simp [isProdAssignments, Scenario.pairs, Ordered.last?, Token.ofName]
  rw [htree, Condition.holds, Clause.holds, hvalue]
  rfl

/-- The last of two assignments to one parameter decides. -/
theorem test_isProd :
    let outcome := run isProdArguments [] isProdFiles
    outcome.code = 0 ∧ outcome.output = "IsProd: true\n" := by
  intro outcome
  have haccepts : Accepts isProdArguments [] isProdFiles 0 []
      ⟨false, none, .test "t.json" "IsProd" isProdAssignments⟩ := ⟨rfl, by decide +kernel⟩
  obtain ⟨hcode, _, result, _, _, _, hresult, _, _, _, houtput⟩ :=
    (test_prints_evaluation haccepts).2.1 _ ofFile_isProdFiles rfl
  have htrue : result = true := by
    rw [find?_evaluate] at hresult
    exact (Option.some.inj hresult).symm.trans holds_isProd
  rw [htrue] at houtput
  exact ⟨hcode, houtput⟩

end Cli

end TemplateConditions
