/-!
Histories judged entry by entry.

A history grows at its end. What is said of an entry is said of it and of what came before it,
so a judgement of every entry extends by a judgement of the newest one.
-/

namespace Brenn.Lib

universe u

variable {α : Type u} {judged : List α → α → Prop}

/-- Every entry is judged against the entries before it. -/
def Throughout (judged : List α → α → Prop) (log : List α) : Prop :=
  ∀ before entry after, log = before ++ entry :: after → judged before entry

/-- Where an entry of a grown history stands: at its end, or within what was there. -/
theorem snoc_eq_append_cons {log before after : List α} {newest entry : α} (split : log ++ [newest] = before ++ entry :: after) :
    (before = log ∧ entry = newest ∧ after = []) ∨ ∃ rest, after = rest ++ [newest] ∧ log = before ++ entry :: rest := by
  rcases List.eq_nil_or_concat after with rfl | ⟨rest, last, rfl⟩
  · have same := List.append_inj' split rfl
    exact .inl ⟨same.1.symm, (List.cons.inj same.2).1.symm, rfl⟩
  · have grouped : log ++ [newest] = (before ++ entry :: rest) ++ [last] := by simpa using split
    obtain ⟨front, back⟩ := List.append_inj' grouped rfl
    exact .inr ⟨rest, by rw [(List.cons.inj back).1, List.concat_eq_append], front⟩

theorem throughout_nil : Throughout judged [] := by
  intro before entry after split
  exact absurd split (by simp)

theorem Throughout.snoc {log : List α} {newest : α} (each : Throughout judged log) (last : judged log newest) :
    Throughout judged (log ++ [newest]) := by
  intro before entry after split
  rcases snoc_eq_append_cons split with ⟨rfl, rfl, -⟩ | ⟨rest, -, within⟩
  · exact last
  · exact each before entry rest within

end Brenn.Lib
