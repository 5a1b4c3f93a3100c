import TemplateConditions.Condition.Scenario
import TemplateConditions.Proofs.Text.Trimming

/-!
# Written assignments

Which texts are assignments, what each of them assigns, and what is wrong with the others.  The text
is cut at its first equals sign: blanks around the name do not count, while the value is taken as it
stands, further equals signs and blanks included.  What is written of a bare name and a value is read
back, unless the value is a literal that starts like a reference.
-/

namespace TemplateConditions.Assignment

/-! ## The written form -/

/-- The text has its first equals sign between the two parts. -/
structure CutAt (text : String) (before after : List Char) : Prop where
  toList_eq : text.toList = before ++ '=' :: after
  first : '=' ∉ before

/-- The value for which the characters behind the equals sign stand: a reference behind an at sign,
and otherwise the characters themselves. -/
inductive ValueWrittenAs : List Char → Comparand → Prop
  | literal {cs : List Char} (h : cs.head? ≠ some '@') :
    ValueWrittenAs cs (.literal (String.ofList cs))
  | reference {other : List Char} (h : other ≠ []) :
    ValueWrittenAs ('@' :: other) (.reference (Token.ofName (String.ofList other)))

/-- The assignment for which a text stands. -/
inductive WrittenAs (text : String) : Assignment → Prop
  | cut {before after : List Char} {name : String} {value : Comparand}
    (hcut : CutAt text before after) (hname : Text.TrimsTo before name.toList) (hne : name ≠ "")
    (hvalue : ValueWrittenAs after value) : WrittenAs text ⟨⟨name⟩, value⟩

/-- The first thing that is wrong with a text. -/
inductive Refused (text : String) : Fault → Prop
  | noEqualsSign (h : '=' ∉ text.toList) : Refused text (.noEqualsSign text)
  | noName {before after : List Char} (hcut : CutAt text before after)
    (hblank : Text.Blank before) : Refused text (.noName text)
  | noReferenceName {before : List Char} (hcut : CutAt text before ['@'])
    (hname : ¬ Text.Blank before) : Refused text (.noReferenceName text)

/-! ## Cut texts -/

variable {text : String} {before after : List Char}

theorem CutAt.splitAt?_eq (h : CutAt text before after) :
    Text.splitAt? '=' text.toList = some (before, after) := by
  rw [h.toList_eq, Text.splitAt?_append h.first]

/-- A text without an equals sign cannot be cut. -/
theorem exists_cutAt_iff : (∃ before after, CutAt text before after) ↔ '=' ∈ text.toList := by
  constructor
  · rintro ⟨before, after, hcut⟩
    rw [hcut.toList_eq]
    exact List.mem_append_right before List.mem_cons_self
  · intro h
    obtain ⟨before, after, htext, hfirst⟩ := List.eq_append_cons_of_mem h
    exact ⟨before, after, htext, hfirst⟩

theorem trim_eq_empty_iff : Text.trim (String.ofList before) = "" ↔ Text.Blank before := by
  rw [Text.trim_eq_iff, String.toList_ofList]
  exact Text.trimsTo_nil_iff

theorem CutAt.ofText_eq : CutAt text before after →
    ofText text =
      match Text.trim (String.ofList before), after with
      | "", _ => .error (.noName text)
      | _, ['@'] => .error (.noReferenceName text)
      | name, '@' :: other => .ok ⟨⟨name⟩, .reference (Token.ofName (String.ofList other))⟩
      | name, literal => .ok ⟨⟨name⟩, .literal (String.ofList literal)⟩ := by
  intro h
  have hsplit := h.splitAt?_eq
  unfold ofText
  split
  · rename_i hnone
    rw [hsplit] at hnone
    exact absurd hnone (by simp)
  · rename_i hsome
    rw [hsplit, Option.some.injEq, Prod.mk.injEq] at hsome
    obtain ⟨rfl, rfl⟩ := hsome
    rfl

/-! ## Reading -/

theorem ofText_of_writtenAs {assignment : Assignment} (h : WrittenAs text assignment) :
    ofText text = .ok assignment := by
  obtain ⟨hcut, hname, hne, hvalue⟩ := h
  rename_i before after name value
  have htrim : Text.trim (String.ofList before) = name := by
    rw [Text.trim_eq_iff, String.toList_ofList]
    exact hname
  rw [hcut.ofText_eq, htrim]
  cases hvalue with
  | literal hliteral =>
    split
    · exact absurd rfl hne
    · exact absurd rfl hliteral
    · exact absurd rfl hliteral
    · rfl
  | reference hother =>
    split
    · exact absurd rfl hne
    · rename_i heq
      exact absurd (List.cons.inj heq).2 hother
    · rename_i heq
      rw [(List.cons.inj heq).2]
    · rename_i hnot
      exact absurd rfl (hnot _)

theorem ofText_of_refused {fault : Fault} (h : Refused text fault) :
    ofText text = .error fault := by
  cases h with
  | noEqualsSign hnone =>
    unfold ofText
    split
    · rfl
    · rename_i hsplit
      obtain ⟨htext, _⟩ := Text.splitAt?_eq_some hsplit
      rw [htext] at hnone
      exact absurd (List.mem_append_right _ List.mem_cons_self) hnone
  | noName hcut hblank =>
    rw [hcut.ofText_eq, trim_eq_empty_iff.2 hblank]
    rfl
  | noReferenceName hcut hname =>
    rw [hcut.ofText_eq]
    split
    · rename_i htrim
      exact absurd (trim_eq_empty_iff.1 htrim) hname
    · rfl
    · rename_i hother heq _
      exact absurd (List.cons.inj heq).2.symm hother
    · rename_i hnot
      exact absurd rfl (hnot [])

/-- Only the at sign by itself stands for no value. -/
theorem exists_value_iff : (∃ value, ValueWrittenAs after value) ↔ after ≠ ['@'] := by
  constructor
  · rintro ⟨value, hvalue⟩ rfl
    cases hvalue with
    | literal hliteral => exact hliteral rfl
    | reference hother => exact hother rfl
  · intro hne
    -- Only the first character decides between a reference and a literal.
    by_cases hhead : after.head? = some '@'
    · obtain ⟨other, rfl⟩ := List.head?_eq_some_iff.1 hhead
      exact ⟨_, .reference fun hnil => hne (by rw [hnil])⟩
    · exact ⟨_, .literal hhead⟩

theorem exists_writtenAs_iff :
    (∃ assignment, WrittenAs text assignment) ↔
      ∃ before after, CutAt text before after ∧ ¬ Text.Blank before ∧ after ≠ ['@'] := by
  constructor
  · rintro ⟨_, hcut, hname, hne, hvalue⟩
    refine ⟨_, _, hcut, fun hblank => hne ?_, exists_value_iff.1 ⟨_, hvalue⟩⟩
    have hempty := Text.trimsTo_nil_iff.2 hblank
    rw [← String.toList_eq_nil_iff]
    exact hname.unique hempty
  · rintro ⟨before, after, hcut, hblank, hvalue⟩
    obtain ⟨value, hvalue⟩ := exists_value_iff.2 hvalue
    have hname := Text.trimsTo_trim (String.ofList before)
    rw [String.toList_ofList] at hname
    exact ⟨_, .cut hcut hname (fun hempty => hblank (trim_eq_empty_iff.1 hempty)) hvalue⟩

/-- Every text is an assignment or is refused. -/
theorem writtenAs_or_refused (text : String) :
    (∃ assignment, WrittenAs text assignment) ∨ ∃ fault, Refused text fault := by
  -- The questions are asked in the order in which the faults are looked for.
  by_cases hmark : '=' ∈ text.toList
  · obtain ⟨before, after, hcut⟩ := exists_cutAt_iff.2 hmark
    by_cases hblank : Text.Blank before
    · exact .inr ⟨_, .noName hcut hblank⟩
    · by_cases hvalue : after = ['@']
      · subst hvalue
        exact .inr ⟨_, .noReferenceName hcut hblank⟩
      · exact .inl (exists_writtenAs_iff.2 ⟨before, after, hcut, hblank, hvalue⟩)
  · exact .inr ⟨_, .noEqualsSign hmark⟩

theorem ofText_eq_ok_iff {assignment : Assignment} :
    ofText text = .ok assignment ↔ WrittenAs text assignment := by
  refine ⟨fun h => ?_, ofText_of_writtenAs⟩
  rcases writtenAs_or_refused text with ⟨other, hother⟩ | ⟨fault, hfault⟩
  · rw [ofText_of_writtenAs hother] at h
    exact Except.ok.inj h ▸ hother
  · rw [ofText_of_refused hfault] at h
    exact absurd h (by simp)

theorem ofText_eq_error_iff {fault : Fault} :
    ofText text = .error fault ↔ Refused text fault := by
  refine ⟨fun h => ?_, ofText_of_refused⟩
  rcases writtenAs_or_refused text with ⟨assignment, hassignment⟩ | ⟨other, hother⟩
  · rw [ofText_of_writtenAs hassignment] at h
    exact absurd h (by simp)
  · rw [ofText_of_refused hother] at h
    exact Except.error.inj h ▸ hother

/-! ## Reading back -/

/-- A name that can stand in front of an equals sign and is read as it is written. -/
structure Plain (name : String) : Prop where
  ne_empty : name ≠ ""
  noMark : '=' ∉ name.toList
  bare : Text.Bare name.toList

theorem Plain.writtenAs {name : String} (h : Plain name) {value : Comparand}
    (hvalue : ValueWrittenAs after value) :
    WrittenAs (name ++ "=" ++ String.ofList after) ⟨⟨name⟩, value⟩ := by
  have hcut : CutAt (name ++ "=" ++ String.ofList after) name.toList after := by
    refine ⟨?_, h.noMark⟩
    rw [String.toList_append, String.toList_append, String.toList_ofList, List.append_assoc,
      String.toList_ofList]
    rfl
  exact .cut hcut (Text.trimsTo_self h.bare) h.ne_empty hvalue

/-! ## Main result -/

/-- A text is an assignment exactly if it has an equals sign, something that is not blank in front of
the first one, and not the at sign alone behind it.  It assigns to the trimmed name the reference
that is named behind an at sign, or else the characters behind the equals sign as they are.  Any
other text is refused for the first of the three that it misses.  And what is written of a plain
name, with a literal that does not start with an at sign or with the name of a reference, is read as
that name and that value. -/
theorem assignments_read_as_written :
    (∀ text, (∃ assignment, ofText text = .ok assignment) ↔
      ∃ before after, CutAt text before after ∧ ¬ Text.Blank before ∧ after ≠ ['@']) ∧
    (∀ text assignment, ofText text = .ok assignment ↔ WrittenAs text assignment) ∧
    (∀ text fault, ofText text = .error fault ↔ Refused text fault) ∧
    ∀ name, Plain name →
      (∀ literal : String, literal.toList.head? ≠ some '@' →
        ofText (name ++ "=" ++ literal) = .ok ⟨⟨name⟩, .literal literal⟩) ∧
      ∀ other, other ≠ "" →
        ofText (name ++ "=@" ++ other) = .ok ⟨⟨name⟩, .reference (Token.ofName other)⟩ := by
  refine ⟨fun text => ?_, fun _ _ => ofText_eq_ok_iff, fun _ _ => ofText_eq_error_iff,
    fun name hname => ⟨fun literal hliteral => ?_, fun other hother => ?_⟩⟩
  · simp only [ofText_eq_ok_iff]
    exact exists_writtenAs_iff
  · have hwritten := hname.writtenAs (.literal hliteral)
    rw [String.ofList_toList] at hwritten
    exact ofText_of_writtenAs hwritten
  · have hne : other.toList ≠ [] := fun hnil => hother (String.toList_eq_nil_iff.1 hnil)
    have hwritten := hname.writtenAs (.reference hne)
    have htext : name ++ "=@" ++ other = name ++ "=" ++ String.ofList ('@' :: other.toList) := by
      rw [← String.toList_inj]
      simp [String.toList_append]
    rw [String.ofList_toList, ← htext] at hwritten
    exact ofText_of_writtenAs hwritten

/-- Blanks around the name are dropped, so that two texts assign to one name; a blank in front of the
at sign makes it part of a literal. -/
theorem ofText_padded_name :
    let padded := "\u00a0Env\t= @Zone"
    Plain "Env" ∧ ofText padded = .ok ⟨⟨"Env"⟩, .literal " @Zone"⟩ ∧
      ofText "Env=@Zone" = .ok ⟨⟨"Env"⟩, .reference (Token.ofName "Zone")⟩ ∧
      ofText "Env==" = .ok ⟨⟨"Env"⟩, .literal "="⟩ := by
  intro padded
  have hplain : Plain "Env" := ⟨by decide, by decide, by decide⟩
  have hcut : CutAt padded "\u00a0Env\t".toList " @Zone".toList := ⟨by decide, by decide⟩
  have hname : Text.TrimsTo "\u00a0Env\t".toList "Env".toList :=
    ⟨hplain.bare, ['\u00a0'], ['\t'], rfl, by decide, by decide⟩
  have hwritten : WrittenAs padded ⟨⟨"Env"⟩, .literal " @Zone"⟩ :=
    .cut hcut hname hplain.ne_empty (.literal (by decide))
  obtain ⟨_, hread, _, hback⟩ := assignments_read_as_written
  obtain ⟨hliteral, hreference⟩ := hback "Env" hplain
  exact ⟨hplain, (hread padded _).2 hwritten, hreference "Zone" (by decide),
    hliteral "=" (by decide)⟩

end TemplateConditions.Assignment
