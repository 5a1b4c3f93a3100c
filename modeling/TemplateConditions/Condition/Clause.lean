import TemplateConditions.Condition.Reference
import TemplateConditions.Text.Quoted

/-!
# Comparisons

A clause compares the value of a reference, its subject, with a literal text or with the value of
another reference.
-/

namespace TemplateConditions

/-- What a reference can be compared with, or set to. -/
inductive Comparand where
  | literal (text : String)
  | reference (token : Token)
  deriving DecidableEq

namespace Comparand

/-- Literals come before references. -/
def rank : Comparand → Nat
  | .literal _ => 0
  | .reference _ => 1

/-- The literal or the token, as text. -/
def content : Comparand → String
  | .literal text => text
  | .reference token => token.hex

instance : Ord Comparand := ⟨compareLex (compareOn rank) (compareOn content)⟩

instance : Std.TransOrd Comparand :=
  inferInstanceAs (Std.TransCmp (compareLex (compareOn rank) (compareOn content)))

instance : Std.LawfulEqOrd Comparand where
  eq_of_compare {a b} h := by
    replace h : compareLex (compareOn rank) (compareOn content) a b = .eq := h
    simp only [compareLex, compareOn, Ordering.then_eq_eq] at h
    obtain ⟨hrank, hcontent⟩ := h
    have hrank := Std.LawfulEqOrd.eq_of_compare hrank
    have hcontent := Std.LawfulEqOrd.eq_of_compare hcontent
    cases a <;> cases b <;> simp_all [rank, content]
    rename_i s t
    cases s; cases t; simp_all

/-- The comparand as listings show it: a literal between quotes, a token behind an at sign. -/
def text : Comparand → String
  | .literal text => Text.quoted text
  | .reference token => "@" ++ token.hex

def toJson : Comparand → Json
  | .literal text => .object [("literal", .string text)]
  | .reference token => .object [("reference", .string token.hex)]

end Comparand

/-- The comparison that an `Fn::Equals` stands for. -/
structure Clause where
  subject : Token
  comparand : Comparand
  deriving DecidableEq

namespace Clause

instance : Ord Clause := ⟨compareLex (compareOn subject) (compareOn comparand)⟩

instance : Std.TransOrd Clause :=
  inferInstanceAs (Std.TransCmp (compareLex (compareOn subject) (compareOn comparand)))

instance : Std.LawfulEqOrd Clause where
  eq_of_compare {a b} h := by
    replace h : compareLex (compareOn subject) (compareOn comparand) a b = .eq := h
    simp only [compareLex, compareOn, Ordering.then_eq_eq] at h
    obtain ⟨hsubject, hcomparand⟩ := h
    have hsubject := Std.LawfulEqOrd.eq_of_compare hsubject
    have hcomparand := Std.LawfulEqOrd.eq_of_compare hcomparand
    cases a; cases b; simp_all

def text (clause : Clause) : String :=
  clause.subject.hex ++ " == " ++ clause.comparand.text

end Clause

end TemplateConditions
