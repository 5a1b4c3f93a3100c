import Std.Data.HashSet
import TemplateConditions.Condition.Finding

/-!
# Recorded findings

Findings in the order in which they came, each once.  A hash set beside them tells whether one is
there already.
-/

namespace TemplateConditions

structure Findings where
  items : Array Finding
  seen : Std.HashSet Finding
  mem_seen : ∀ finding, finding ∈ seen ↔ finding ∈ items

namespace Findings

def empty : Findings :=
  ⟨#[], ∅, fun _ =>
    ⟨fun h => absurd h Std.HashSet.not_mem_emptyWithCapacity,
      fun h => absurd h (Array.not_mem_empty _)⟩⟩

def toList (findings : Findings) : List Finding :=
  findings.items.toList

/-- Adds a finding at the end, unless it is there already. -/
def record (findings : Findings) (finding : Finding) : Findings :=
  if finding ∈ findings.seen then findings
  else
    { items := findings.items.push finding
      seen := findings.seen.insert finding
      mem_seen := fun other => by
        rw [Std.HashSet.mem_insert, Array.mem_push, findings.mem_seen, beq_iff_eq, eq_comm,
          or_comm] }

@[simp] theorem toList_empty : empty.toList = [] := rfl

theorem toList_record (findings : Findings) (finding : Finding) :
    (findings.record finding).toList =
      if finding ∈ findings.toList then findings.toList else findings.toList ++ [finding] := by
  unfold record toList
  simp only [findings.mem_seen, ← Array.mem_toList_iff]
  split <;> simp

end Findings

end TemplateConditions
