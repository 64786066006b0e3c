import Rubric.Rules.Basic

/-!
First and last occurrences. An item of a list is the first with a property when no item before it
has the property, and the last when no item after it has. A search from the front finds the first,
a search from the back the last, and a search by a name that only one item has finds that item.
-/
namespace Rubric

variable {α : Type}

def FirstWith (P : α → Prop) (items : List α) (x : α) : Prop :=
  ∃ before after, items = before ++ x :: after ∧ P x ∧ ∀ y ∈ before, ¬ P y

def LastWith (P : α → Prop) (items : List α) (x : α) : Prop :=
  ∃ before after, items = before ++ x :: after ∧ P x ∧ ∀ y ∈ after, ¬ P y

theorem find?_eq_some_iff_firstWith (p : α → Bool) (items : List α) (x : α) :
    items.find? p = some x ↔ FirstWith (fun y => p y = true) items x := by
  rw [List.find?_eq_some_iff_append]
  constructor
  · intro h
    obtain ⟨hp, before, after, hitems, hbefore⟩ := h
    exact ⟨before, after, hitems, hp, fun y hy => by simpa using hbefore y hy⟩
  · intro h
    obtain ⟨before, after, hitems, hp, hbefore⟩ := h
    exact ⟨hp, before, after, hitems, fun y hy => by simpa using hbefore y hy⟩

theorem firstWith_reverse_iff (P : α → Prop) (items : List α) (x : α) :
    FirstWith P items.reverse x ↔ LastWith P items x := by
  have hturn (before after : List α) :
      items.reverse = before ++ x :: after ↔ items = after.reverse ++ x :: before.reverse := by
    rw [List.reverse_eq_iff, List.reverse_append, List.reverse_cons, List.append_assoc,
      List.singleton_append]
  constructor
  · intro h
    obtain ⟨before, after, hitems, hx, hbefore⟩ := h
    refine ⟨after.reverse, before.reverse, (hturn before after).mp hitems, hx, ?_⟩
    intro y hy
    exact hbefore y (List.mem_reverse.mp hy)
  · intro h
    obtain ⟨before, after, hitems, hx, hafter⟩ := h
    refine ⟨after.reverse, before.reverse, (hturn _ _).mpr (by simpa using hitems), hx, ?_⟩
    intro y hy
    exact hafter y (List.mem_reverse.mp hy)

theorem find?_reverse_eq_some_iff_lastWith (p : α → Bool) (items : List α) (x : α) :
    items.reverse.find? p = some x ↔ LastWith (fun y => p y = true) items x := by
  rw [find?_eq_some_iff_firstWith, firstWith_reverse_iff]

theorem find?_name_eq_some_iff (name : α → String) (items : List α)
    (h : ∀ x, items.find? (fun y => name y == name x) = some x) (text : String) (x : α) :
    items.find? (fun y => name y == text) = some x ↔ text = name x := by
  constructor
  · intro hfind
    have hname := List.find?_some hfind
    exact (beq_iff_eq.mp hname).symm
  · intro heq
    rw [heq]
    exact h x

theorem DeclarationKind.ofKeyword?_eq_some_iff (text : String) (kind : DeclarationKind) :
    ofKeyword? text = some kind ↔ text = kind.keyword := by
  apply find?_name_eq_some_iff keyword all
  intro other
  cases other <;> rfl

theorem Construct.ofName?_eq_some_iff (text : String) (construct : Construct) :
    ofName? text = some construct ↔ text = construct.name := by
  apply find?_name_eq_some_iff name all
  intro other
  cases other <;> rfl

end Rubric
